import TaskDialogue.Proofs.Store.Closure
import TaskDialogue.Proofs.Store.Resolution

/-!
# Renaming places

A renaming gives each place of the store another name. Carried out in values, entities and
commands it commutes with everything that is done to them: what is read, written, performed and
asked for depends on which places are the same, and never on what they are called. Two renamings
that agree on the places that occur do the same.
-/
namespace TaskDialogue

variable {f g : Nat → Nat}

/-! ### Values -/

mutual

/-- A value with other names for the places in it, at any depth. -/
def Value.rename (f : Nat → Nat) : Value → Value
  | .list items => .list (Value.renameAll f items)
  | .object id => .object (f id)
  | .none => .none
  | .bool b => .bool b
  | .int n => .int n
  | .float x => .float x
  | .str s => .str s

def Value.renameAll (f : Nat → Nat) : List Value → List Value
  | [] => []
  | item :: rest => item.rename f :: Value.renameAll f rest

end

namespace Value

theorem renameAll_eq (items : List Value) : renameAll f items = items.map (rename f) := by
  induction items with
  | nil => rfl
  | cons item rest ih => rw [renameAll, ih, List.map_cons]

@[simp] theorem rename_list (items : List Value) :
    (list items).rename f = list (items.map (rename f)) := by
  rw [rename, renameAll_eq]

@[simp] theorem rename_object (id : Nat) : (object id).rename f = object (f id) := rfl

@[simp] theorem rename_none : none.rename f = none := rfl

@[simp] theorem isNone_rename (v : Value) : (v.rename f).isNone = v.isNone := by cases v <;> rfl

@[simp] theorem typeName_rename (v : Value) : (v.rename f).typeName = v.typeName := by
  cases v <;> rfl

@[simp] theorem object?_rename (v : Value) : (v.rename f).object? = v.object?.map f := by
  cases v <;> rfl

@[simp] theorem accepts_rename (type : SlotType) (v : Value) :
    type.accepts (v.rename f) = type.accepts v := by
  cases type <;> cases v <;> rfl

mutual

theorem rename_congr : ∀ {v : Value}, (∀ id ∈ v.ids, f id = g id) → v.rename f = v.rename g
  | .list items, h => by
    simp only [rename, renameAll_congr fun item hitem id hid => h id (by
      simpa using ⟨item, hitem, hid⟩)]
  | .object id, h => by simp [h id (by simp)]
  | .none, _ | .bool _, _ | .int _, _ | .float _, _ | .str _, _ => rfl

theorem renameAll_congr : ∀ {items : List Value}, (∀ v ∈ items, ∀ id ∈ v.ids, f id = g id) →
    renameAll f items = renameAll g items
  | [], _ => rfl
  | item :: rest, h => by
    obtain ⟨hitem, hrest⟩ := List.forall_mem_cons.mp h
    rw [renameAll, renameAll, rename_congr hitem, renameAll_congr hrest]

end

mutual

theorem rename_id : ∀ v : Value, v.rename id = v
  | .list items => by rw [rename, renameAll_id items]
  | .object _ | .none | .bool _ | .int _ | .float _ | .str _ => rfl

theorem renameAll_id : ∀ items : List Value, renameAll id items = items
  | [] => rfl
  | item :: rest => by rw [renameAll, rename_id item, renameAll_id rest]

end

/-- What names no place has no names to change. -/
theorem rename_of_ids {v : Value} (h : v.ids = []) : v.rename f = v := by
  rw [rename_congr (g := id) (by simp [h]), rename_id]

end Value

/-! ### Named values -/

/-- Attributes or bindings with other names for the places in their values. -/
def renameNamed (f : Nat → Nat) (named : List (String × Value)) : List (String × Value) :=
  named.map fun a => (a.1, a.2.rename f)

theorem renameNamed_congr {named : List (String × Value)}
    (h : ∀ a ∈ named, ∀ id ∈ a.2.ids, f id = g id) : renameNamed f named = renameNamed g named :=
  List.map_congr_left fun a ha => by rw [Value.rename_congr (h a ha)]

theorem renameNamed_id (named : List (String × Value)) : renameNamed id named = named := by
  simp [renameNamed, Value.rename_id]

namespace Entity

theorem find?_renameNamed (attr : String) (attributes : List (String × Value)) :
    find? attr (renameNamed f attributes) = (find? attr attributes).map (Value.rename f) := by
  induction attributes with
  | nil => rfl
  | cons a rest ih =>
    simp only [renameNamed, List.map_cons, find?] at ih ⊢
    split
    · rfl
    · exact ih

theorem replace_renameNamed (attr : String) (v : Value) (attributes : List (String × Value)) :
    replace attr (v.rename f) (renameNamed f attributes) =
      renameNamed f (replace attr v attributes) := by
  induction attributes with
  | nil => rfl
  | cons a rest ih =>
    simp only [renameNamed, List.map_cons, replace] at ih ⊢
    split
    · rfl
    · rw [ih, List.map_cons]

/-! ### Entities -/

def rename (f : Nat → Nat) (e : Entity) : Entity :=
  { e with attributes := renameNamed f e.attributes }

theorem rename_congr {e : Entity} (h : ∀ id ∈ e.ids, f id = g id) : e.rename f = e.rename g := by
  rw [rename, rename, renameNamed_congr fun a ha id hid => h id (List.mem_flatMap.mpr ⟨a, ha, hid⟩)]

theorem rename_id (e : Entity) : e.rename id = e := by rw [rename, renameNamed_id]

theorem rename_of_ids {e : Entity} (h : e.ids = []) : e.rename f = e := by
  rw [rename_congr (g := id) (by simp [h]), rename_id]

@[simp] theorem get?_rename (e : Entity) (attr : String) :
    (e.rename f).get? attr = (e.get? attr).map (Value.rename f) :=
  find?_renameNamed attr e.attributes

theorem set?_rename (e : Entity) (attr : String) (v : Value) :
    (e.rename f).set? attr (v.rename f) = (e.set? attr v).map (rename f) := by
  have hreplace := replace_renameNamed (f := f) attr v e.attributes
  simp only [set?, get?_rename, Option.map_map]
  congr 1
  funext _
  simp [rename, hreplace]

end Entity

/-! ### Commands -/

namespace Command

def rename (f : Nat → Nat) (c : Command) : Command :=
  { c with values := c.values.map (Value.rename f), results := c.results.map (Entity.rename f) }

variable {c : Command}

@[simp] theorem schema_rename (c : Command) : (c.rename f).schema = c.schema := rfl

@[simp] theorem isQuery_rename (c : Command) : (c.rename f).isQuery = c.isQuery := rfl

@[simp] theorem results_rename (c : Command) :
    (c.rename f).results = c.results.map (Entity.rename f) := rfl

theorem rename_congr (h : ∀ id ∈ c.ids, f id = g id) : c.rename f = c.rename g := by
  have hvalues : c.values.map (Value.rename f) = c.values.map (Value.rename g) :=
    List.map_congr_left fun v hv => Value.rename_congr fun id hid =>
      h id (List.mem_append_left _ (List.mem_flatMap.mpr ⟨v, hv, hid⟩))
  have hresults : c.results.map (Entity.rename f) = c.results.map (Entity.rename g) :=
    List.map_congr_left fun e he => Entity.rename_congr fun id hid =>
      h id (List.mem_append_right _ (List.mem_flatMap.mpr ⟨e, he, hid⟩))
  rw [rename, rename, hvalues, hresults]

theorem rename_id (c : Command) : c.rename id = c := by
  have hvalue : Value.rename id = id := funext Value.rename_id
  have hentity : Entity.rename id = id := funext Entity.rename_id
  rw [rename, hvalue, hentity, List.map_id, List.map_id]

@[simp] theorem rename_ofSchema (schema : CommandSchema) :
    (ofSchema schema).rename f = ofSchema schema := by
  simp only [rename, ofSchema, List.map_map, Function.comp_def, Value.rename_none, List.map_nil]

@[simp] theorem value?_rename (c : Command) (slot : String) :
    (c.rename f).value? slot = (c.value? slot).map (Value.rename f) := by
  simp only [value?, rename]
  cases c.schema.position? slot <;> simp

@[simp] theorem recommend?_rename (c : Command) : (c.rename f).recommend? = c.recommend? := by
  have hmissing : ((c.schema.slots.zip (c.values.map (Value.rename f))).find?
        fun s => s.1.required && s.2.isNone).map (·.1) =
      ((c.schema.slots.zip c.values).find? fun s => s.1.required && s.2.isNone).map (·.1) := by
    rw [List.zip_map_right, List.find?_map, Option.map_map]
    simp [Function.comp_def]
  have hstatus : (c.rename f).slotStatus = c.slotStatus := by
    simp only [slotStatus, rename]
    generalize (c.schema.slots.zip c.values).find? _ = found at hmissing
    generalize (c.schema.slots.zip (c.values.map (Value.rename f))).find? _ = found' at hmissing ⊢
    cases found <;> cases found' <;> simp_all
  rw [recommend?, hstatus, recommend?]

theorem get_rename (c : Command) (attr : String) :
    (c.rename f).get attr = (c.get attr).map (Value.rename f) := by
  unfold get
  split
  · rfl
  · cases hposition : c.slotPosition attr with
    | error e =>
      have hsame : (c.rename f).slotPosition attr = .error e := hposition
      rw [hsame]
      rfl
    | ok position =>
      have hsame : (c.rename f).slotPosition attr = .ok position := hposition
      have hvalue : (c.values.map (Value.rename f)).getD position .none =
          (c.values.getD position .none).rename f := by
        rw [List.getD_eq_getElem?_getD, List.getD_eq_getElem?_getD, List.getElem?_map]
        cases c.values[position]? <;> rfl
      rw [hsame]
      exact congrArg Except.ok hvalue

theorem set_rename (c : Command) (attr : String) (v : Value) :
    (c.rename f).set attr (v.rename f) = (c.set attr v).map (rename f) := by
  unfold set
  split
  · cases v <;> rfl
  · cases hposition : c.slotPosition attr with
    | error e =>
      have hsame : (c.rename f).slotPosition attr = .error e := hposition
      rw [hsame]
      rfl
    | ok position =>
      have hsame : (c.rename f).slotPosition attr = .ok position := hposition
      simp only [hsame, schema_rename, bind, Except.bind, Value.accepts_rename, Value.typeName_rename]
      generalize (c.schema.slots.map SlotSchema.type).getD position SlotType.any = type
      cases type.accepts v with
      | false => rfl
      | true => simp [Except.map, pure, Except.pure, rename, List.map_set]

end Command

/-! ### What a turn hands back -/

def ActionOutput.rename (f : Nat → Nat) : ActionOutput → ActionOutput
  | .inform dialogue => .inform dialogue
  | .informList dialogue items => .informList dialogue (items.map (Entity.rename f))
  | .value v => .value (v.rename f)

/-- The places that an output names. -/
def ActionOutput.ids : ActionOutput → List Nat
  | .inform _ => []
  | .informList _ items => items.flatMap Entity.ids
  | .value v => v.ids

theorem ActionOutput.rename_congr {output : ActionOutput} (h : ∀ id ∈ output.ids, f id = g id) :
    output.rename f = output.rename g := by
  cases output with
  | inform _ => rfl
  | informList dialogue items =>
    have hitems : items.map (Entity.rename f) = items.map (Entity.rename g) :=
      List.map_congr_left fun e he => Entity.rename_congr fun id hid =>
        h id (List.mem_flatMap.mpr ⟨e, he, hid⟩)
    rw [ActionOutput.rename, ActionOutput.rename, hitems]
  | value v => rw [ActionOutput.rename, ActionOutput.rename, Value.rename_congr h]

def ActionResult.rename (f : Nat → Nat) (r : ActionResult) : ActionResult :=
  { r with result := r.result.map (ActionOutput.rename f) }

def ActionResult.ids (r : ActionResult) : List Nat := r.result.elim [] ActionOutput.ids

theorem ActionResult.rename_congr {r : ActionResult} (h : ∀ id ∈ r.ids, f id = g id) :
    r.rename f = r.rename g := by
  obtain ⟨index, result, action⟩ := r
  cases result with
  | none => rfl
  | some output => simp [ActionResult.rename, ActionOutput.rename_congr h]

/-- Records name no places, so a query finds the same in either way. -/
theorem Command.perform_rename {context : AppContext} (h : context.Literal) (c : Command) :
    (c.rename f).perform context =
      (c.perform context).map fun r => (r.1.map (ActionOutput.rename f), r.2.rename f) := by
  have hrecords : ∀ entity, (context.records entity).map (Entity.rename f) =
      context.records entity := fun entity =>
    (List.map_congr_left fun e he => Entity.rename_of_ids (h entity e he)).trans (List.map_id' _)
  unfold Command.perform
  rw [Command.schema_rename]
  cases c.schema.kind with
  | query entity =>
    dsimp only
    split
    · rfl
    · simp [Except.map, ActionOutput.rename, Command.rename, hrecords]
  | intent | say | hint | perform | len | next => rfl

/-- What is handed back by performing a command names no places. -/
theorem Command.ids_perform {context : AppContext} (h : context.Literal) {c c' : Command}
    {output : ActionOutput} (hperform : c.perform context = .ok (some output, c')) :
    output.ids = [] := by
  unfold Command.perform at hperform
  cases hkind : c.schema.kind with
  | intent =>
    simp only [hkind, Except.ok.injEq, Prod.mk.injEq, Option.some.injEq] at hperform
    rw [← hperform.1]
    rfl
  | query entity =>
    simp only [hkind] at hperform
    split at hperform
    · simp at hperform
    · simp only [Except.ok.injEq, Prod.mk.injEq, Option.some.injEq] at hperform
      rw [← hperform.1]
      exact List.flatMap_eq_nil_iff.mpr (h entity)
  | say | hint | perform | len | next => simp [hkind] at hperform

/-! ### Objects -/

namespace TaskObject

def rename (f : Nat → Nat) : TaskObject → TaskObject
  | command c => command (c.rename f)
  | entity e => entity (e.rename f)

theorem rename_congr {o : TaskObject} (h : ∀ id ∈ o.ids, f id = g id) : o.rename f = o.rename g := by
  cases o with
  | command c => rw [rename, rename, Command.rename_congr h]
  | entity e => rw [rename, rename, Entity.rename_congr h]

theorem rename_id (o : TaskObject) : o.rename id = o := by
  cases o with
  | command c => rw [rename, Command.rename_id]
  | entity e => rw [rename, Entity.rename_id]

@[simp] theorem recommend?_rename (o : TaskObject) : (o.rename f).recommend? = o.recommend? := by
  cases o with
  | command c => exact c.recommend?_rename
  | entity e => rfl

@[simp] theorem notify_rename (action : String) (o : TaskObject) :
    (o.rename f).notify action = (o.notify action).rename f := by
  cases o <;> rfl

@[simp] theorem typeName_rename (o : TaskObject) : (o.rename f).typeName = o.typeName := by
  cases o <;> rfl

theorem get_rename (o : TaskObject) (attr : String) :
    (o.rename f).get attr = (o.get attr).map (Value.rename f) := by
  cases o with
  | command c => exact c.get_rename attr
  | entity e =>
    simp only [rename, get, Entity.get?_rename]
    cases e.get? attr <;> rfl

theorem set_rename (o : TaskObject) (attr : String) (v : Value) :
    (o.rename f).set attr (v.rename f) = (o.set attr v).map (rename f) := by
  cases o with
  | command c =>
    simp only [rename, set, c.set_rename attr v]
    cases c.set attr v <;> rfl
  | entity e =>
    simp only [rename, set, e.set?_rename attr v]
    cases e.set? attr v <;> rfl

theorem append_rename (o : TaskObject) (attr : String) (v : Value) :
    (o.rename f).append attr (v.rename f) = (o.append attr v).map (rename f) := by
  unfold append
  rw [get_rename]
  cases o.get attr with
  | error e => rfl
  | ok value =>
    cases value with
    | list items =>
      have hset := o.set_rename (f := f) attr (.list (items ++ [v]))
      simpa [Except.map, bind, Except.bind] using hset
    | none | bool | int | float | str | object =>
      simp [Except.map, bind, Except.bind, Value.rename]

theorem perform_rename {context : AppContext} (h : context.Literal) (o : TaskObject) :
    (o.rename f).perform context =
      (o.perform context).map fun r => (r.1.map (ActionOutput.rename f), r.2.rename f) := by
  cases o with
  | command c =>
    simp only [rename, perform, c.perform_rename h]
    cases c.perform context <;> rfl
  | entity e => rfl

theorem ids_perform {context : AppContext} (h : context.Literal) {o o' : TaskObject}
    {output : ActionOutput} (hperform : o.perform context = .ok (some output, o')) :
    output.ids = [] := by
  cases o with
  | entity e => simp [perform] at hperform
  | command c =>
    obtain ⟨⟨done, c'⟩, hc, hdone⟩ := map_eq_ok.mp hperform
    obtain rfl : done = some output := (Prod.mk.inj hdone).1
    exact Command.ids_perform h hc

theorem part_rename (o : TaskObject) (place : Option Nat) :
    (o.rename f).part place = (o.part place).rename f := by
  cases place with
  | none => simp
  | some position =>
    cases o with
    | entity e => rfl
    | command c =>
      simp only [rename, part, Command.rename, List.getElem?_map]
      cases c.results[position]? <;> rfl

theorem withPart_rename (o changed : TaskObject) (place : Option Nat) :
    (o.rename f).withPart place (changed.rename f) = (o.withPart place changed).rename f := by
  cases o with
  | entity e => rfl
  | command c =>
    cases place with
    | none => rfl
    | some position =>
      cases changed with
      | command d => rfl
      | entity e =>
        simp only [rename, withPart, Command.rename, List.length_map]
        split
        · simp [List.map_set]
        · rfl

end TaskObject

end TaskDialogue
