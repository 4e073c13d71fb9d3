import TaskDialogue.Proofs.Store.Accessors

/-!
# Well-typed stores

A command has a schema of the registry and in each of its slots a value that the slot accepts.
An entity has the kind and the attribute names of a record of the application, and so have the
results of a query. What is written or found changes none of this: an object persists with its
schema, or with its kind and its attribute names.
-/
namespace TaskDialogue

/-- What never changes about an entity: its kind, and the names of its attributes in order. -/
def Entity.shape (e : Entity) : String × List String := (e.kind, e.attributes.map (·.1))

/-- A command of the registry with one value for each slot, which the slot accepts. -/
structure Command.WellTyped (registry : Registry) (c : Command) : Prop where
  registered : registry.get? c.name = some c.schema
  length : c.values.length = c.schema.slots.length
  accepted : ∀ (position : Nat) (slot : SlotSchema) (v : Value), c.schema.slots[position]? = some slot →
    c.values[position]? = some v → slot.type.accepts v = true

/-- An entity has the shape of a record. -/
def Entity.Recorded (context : AppContext) (e : Entity) : Prop :=
  ∃ kind, ∃ record ∈ context.records kind, e.shape = record.shape

/-- A query has found nothing, or entities in the shape of its records one by one. -/
def Command.Found (context : AppContext) (c : Command) : Prop :=
  c.results = [] ∨ ∃ entity, c.schema.kind = .query entity ∧
    c.results.map Entity.shape = (context.records entity).map Entity.shape

namespace TaskObject

inductive Typed (registry : Registry) (context : AppContext) : TaskObject → Prop where
  | command {c : Command} (typed : c.WellTyped registry) (found : c.Found context) :
    Typed registry context (command c)
  | entity {e : Entity} (recorded : e.Recorded context) : Typed registry context (entity e)

/-- What becomes of an object. A command keeps its schema and an entity its shape, and so does
each entity that a query has found. -/
inductive Persists : TaskObject → TaskObject → Prop where
  | command {c c' : Command} (schema : c'.schema = c.schema)
      (results : c.results ≠ [] → c'.results.map Entity.shape = c.results.map Entity.shape) :
    Persists (command c) (command c')
  | entity {e e' : Entity} (shape : e'.shape = e.shape) : Persists (entity e) (entity e')

theorem Persists.refl (o : TaskObject) : o.Persists o := by
  cases o with
  | command c => exact .command rfl fun _ => rfl
  | entity e => exact .entity rfl

theorem Persists.trans {o o' o'' : TaskObject} (first : o.Persists o') (last : o'.Persists o'') :
    o.Persists o'' := by
  cases first with
  | command schema results =>
    cases last with
    | command schema' results' =>
      refine .command (schema'.trans schema) fun hfound => ?_
      have hsame := results hfound
      refine (results' fun hnone => ?_).trans hsame
      rw [hnone, List.map_nil, eq_comm, List.map_eq_nil_iff] at hsame
      exact hfound hsame
  | entity shape =>
    cases last with
    | entity shape' => exact .entity (shape'.trans shape)

theorem Written.persists {o o' : TaskObject} (h : o.Written o') : o.Persists o' := by
  cases h with
  | command schema results _ => exact .command schema fun _ => by rw [results]
  | entity kind names => exact .entity (Prod.ext kind names)

end TaskObject

/-! ### Commands -/

namespace Command

variable {registry : Registry} {context : AppContext} {c c' : Command} {attr : String} {v : Value}

/-- A write puts a value into a slot that accepts it, and into no other. -/
theorem WellTyped.set (hc : c.WellTyped registry) (h : c.set attr v = .ok c') :
    c'.WellTyped registry := by
  obtain ⟨-, b, -, rfl⟩ | ⟨-, position, slot, -, hslot, haccepts, rfl⟩ := set_cases h
  · exact ⟨hc.registered, hc.length, hc.accepted⟩
  · refine ⟨hc.registered, by simpa using hc.length, fun place slot' w hslot' hw => ?_⟩
    rw [List.getElem?_set] at hw
    split at hw
    · next hplace =>
      subst hplace
      obtain rfl : slot = slot' := Option.some.inj (hslot.symm.trans hslot')
      split at hw
      · exact Option.some.inj hw ▸ haccepts
      · simp at hw
    · exact hc.accepted place slot' w hslot' hw

theorem Found.recorded (h : c.Found context) {e : Entity} (he : e ∈ c.results) :
    e.Recorded context := by
  obtain hnone | ⟨entity, -, hsame⟩ := h
  · simp [hnone] at he
  · have hshape : e.shape ∈ (context.records entity).map Entity.shape :=
      hsame ▸ List.mem_map_of_mem he
    obtain ⟨record, hrecord, heq⟩ := List.mem_map.mp hshape
    exact ⟨entity, record, hrecord, heq.symm⟩

end Command

/-! ### Objects and their parts -/

namespace TaskObject

variable {registry : Registry} {context : AppContext} {o changed : TaskObject} {attr : String}
  {v : Value}

theorem Typed.part (h : o.Typed registry context) (place : Option Nat) :
    (o.part place).Typed registry context := by
  unfold TaskObject.part
  split
  · next c position =>
    split
    · next e he =>
      cases h with
      | command _ found => exact .entity (found.recorded (List.mem_of_getElem? he))
    · exact h
  · exact h

theorem Typed.set (h : o.Typed registry context) (hset : o.set attr v = .ok changed) :
    changed.Typed registry context := by
  have hwritten := set_written hset
  cases h with
  | command typed found =>
    obtain ⟨c', hc', rfl⟩ := map_eq_ok.mp hset
    cases hwritten with
    | command schema results _ =>
      refine .command (typed.set hc') ?_
      rwa [Command.Found, schema, results]
  | entity recorded =>
    cases hwritten with
    | entity kind names =>
      obtain ⟨entity, record, hrecord, hshape⟩ := recorded
      exact .entity ⟨entity, record, hrecord, (Prod.ext kind names).trans hshape⟩

/-- A query finds its records in their shape, now as before. -/
theorem Typed.perform (h : o.Typed registry context) {output : Option ActionOutput}
    (hperform : o.perform context = .ok (output, changed)) :
    changed.Typed registry context ∧ o.Persists changed := by
  obtain rfl | ⟨c, entity, rfl, hkind, -, rfl⟩ := perform_cases hperform
  · exact ⟨h, .refl _⟩
  · cases h with
    | command typed found =>
      refine ⟨.command ⟨typed.registered, typed.length, typed.accepted⟩ ?_,
        .command rfl fun hfound => ?_⟩
      · exact .inr ⟨entity, hkind, rfl⟩
      · obtain hnone | ⟨entity', hkind', hsame⟩ := found
        · exact absurd hnone hfound
        · obtain rfl : entity = entity' := by
            rw [hkind, CommandKind.query.injEq] at hkind'
            exact hkind'
          exact hsame.symm

theorem Typed.notify (h : o.Typed registry context) (action : String) :
    (o.notify action).Typed registry context ∧ o.Persists (o.notify action) := by
  cases h with
  | command typed found =>
    exact ⟨.command ⟨typed.registered, typed.length, typed.accepted⟩ found,
      .command rfl fun _ => rfl⟩
  | entity recorded => exact ⟨.entity recorded, .refl _⟩

/-- A result that persists does so among the results, and everything else is the object itself. -/
theorem Typed.withPart (h : o.Typed registry context) {place : Option Nat}
    (hchanged : changed.Typed registry context) (hpersists : (o.part place).Persists changed) :
    (o.withPart place changed).Typed registry context ∧ o.Persists (o.withPart place changed) := by
  cases h with
  | entity recorded =>
    have hpart : ∀ e : Entity, (TaskObject.entity e).part place = .entity e := by
      cases place <;> simp [TaskObject.part]
    rw [hpart] at hpersists
    exact ⟨hchanged, hpersists⟩
  | @command c typed found =>
    cases place with
    | none =>
      rw [part_none] at hpersists
      exact ⟨hchanged, hpersists⟩
    | some position =>
      simp only [TaskObject.part] at hpersists
      split at hpersists
      · next e he =>
        obtain ⟨hlt, hposition⟩ := List.getElem?_eq_some_iff.mp he
        cases hpersists with
        | @entity _ e' shape =>
          have hshapes : (c.results.set position e').map Entity.shape =
              c.results.map Entity.shape := by
            have hbound : position < (c.results.map Entity.shape).length := by simpa using hlt
            have hsame : (c.results.map Entity.shape)[position] = e'.shape := by
              rw [List.getElem_map, hposition, shape]
            rw [List.map_set, ← hsame, List.set_getElem_self]
          simp only [TaskObject.withPart, hlt, if_true]
          refine ⟨.command ⟨typed.registered, typed.length, typed.accepted⟩ ?_,
            .command rfl fun _ => hshapes⟩
          obtain hnone | ⟨entity, hkind, hsame⟩ := found
          · simp [hnone] at hlt
          · exact .inr ⟨entity, hkind, hshapes.trans hsame⟩
      · cases hpersists with
        | command schema results => exact ⟨hchanged, .command schema results⟩

end TaskObject

/-! ### States -/

namespace State

/-- The records are those of the application, and every object of the store is typed. -/
structure Typed (registry : Registry) (context : AppContext) (s : State) : Prop where
  objects : ∀ o ∈ s.objects, o.Typed registry context
  context : s.context = context

/-- Every object of the one state persists in the other, at the same place. -/
def Persists (s t : State) : Prop :=
  ∀ id, id < s.objects.length → id < t.objects.length ∧ (s.object id).Persists (t.object id)

variable {registry : Registry} {context : AppContext} {s t : State} {o : TaskObject}

theorem Persists.refl (s : State) : s.Persists s := fun _ hid => ⟨hid, .refl _⟩

theorem typed_new (registry : Registry) (context : AppContext) :
    (new context).Typed registry context :=
  ⟨by simp [new], rfl⟩

namespace Typed

theorem object (h : s.Typed registry context) {id : Nat} (hid : id < s.objects.length) :
    (s.object id).Typed registry context :=
  h.objects _ (object_mem hid)

theorem congr (h : s.Typed registry context) (hobjects : t.objects = s.objects)
    (hcontext : t.context = s.context) : t.Typed registry context :=
  ⟨by rw [hobjects]; exact h.objects, hcontext.trans h.context⟩

theorem alloc (h : s.Typed registry context) (ho : o.Typed registry context) :
    (s.alloc o).Typed registry context := by
  refine ⟨fun p hp => ?_, h.context⟩
  obtain hp | hp := List.mem_append.mp hp
  · exact h.objects p hp
  · exact List.mem_singleton.mp hp ▸ ho

theorem set (h : s.Typed registry context) (id : Nat) (ho : o.Typed registry context) :
    { s with objects := s.objects.set id o }.Typed registry context := by
  refine ⟨fun p hp => ?_, h.context⟩
  obtain hp | rfl := List.mem_or_eq_of_mem_set hp
  · exact h.objects p hp
  · exact ho

end Typed

namespace Persists

theorem trans {u : State} (first : s.Persists t) (last : t.Persists u) : s.Persists u := by
  intro id hid
  obtain ⟨hlt, hobject⟩ := first id hid
  obtain ⟨hlt', hobject'⟩ := last id hlt
  exact ⟨hlt', hobject.trans hobject'⟩

theorem of_objects (h : t.objects = s.objects) : s.Persists t := by
  intro id hid
  have hsame : t.object id = s.object id := by rw [State.object, State.object, h]
  exact ⟨h ▸ hid, hsame ▸ .refl _⟩

theorem alloc (s : State) (o : TaskObject) : s.Persists (s.alloc o) := by
  intro id hid
  refine ⟨by simp [State.alloc]; omega, ?_⟩
  rw [object_alloc, if_neg (Nat.ne_of_lt hid)]
  exact .refl _

theorem set {place : Nat} (ho : (s.object place).Persists o) :
    s.Persists { s with objects := s.objects.set place o } := by
  intro id hid
  refine ⟨by simpa using hid, ?_⟩
  rw [object_set]
  split
  · next hplace => exact hplace.1 ▸ ho
  · exact .refl _

end Persists

/-- An object is put in the place of another one that it comes from, if there is one. -/
theorem Typed.replace (h : s.Typed registry context) (id : Nat)
    (ho : (s.object id).Typed registry context →
      o.Typed registry context ∧ (s.object id).Persists o) :
    { s with objects := s.objects.set id o }.Typed registry context ∧
      s.Persists { s with objects := s.objects.set id o } := by
  by_cases hid : id < s.objects.length
  · obtain ⟨htyped, hpersists⟩ := ho (h.object hid)
    exact ⟨h.set id htyped, .set hpersists⟩
  · have hnothing : s.objects.set id o = s.objects :=
      List.set_eq_of_length_le (Nat.le_of_not_lt hid)
    exact ⟨h.congr hnothing rfl, .of_objects hnothing⟩

/-- What becomes of a part becomes of the object. -/
theorem Typed.setTask (h : s.Typed registry context) (target : TaskRef) {changed : TaskObject}
    (hchanged : (s.task target).Typed registry context →
      changed.Typed registry context ∧ (s.task target).Persists changed) :
    (s.setTask target changed).Typed registry context ∧ s.Persists (s.setTask target changed) := by
  refine h.replace target.id fun hobject => ?_
  obtain ⟨htyped, hpersists⟩ := hchanged (hobject.part target.entity)
  exact hobject.withPart htyped hpersists

theorem Typed.write (h : s.Typed registry context) {target : TaskRef} {attr : String} {v : Value}
    {changed : TaskObject} (hset : (s.task target).set attr v = .ok changed) :
    (s.setTask target changed).Typed registry context ∧ s.Persists (s.setTask target changed) :=
  h.setTask target fun htask => ⟨htask.set hset, (TaskObject.set_written hset).persists⟩

theorem Typed.followRecommendation (h : s.Typed registry context) :
    s.followRecommendation.Typed registry context ∧ s.Persists s.followRecommendation := by
  unfold State.followRecommendation
  split
  · exact ⟨h, .refl s⟩
  · next var action _ =>
    split
    · exact ⟨h, .refl s⟩
    · exact h.replace _ fun hobject => hobject.notify action.name

end State

end TaskDialogue
