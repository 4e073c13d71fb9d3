import TaskDialogue.Proofs.Domain.Duplicates
import TaskDialogue.Proofs.Syntax.Shape

/-!
# Loading records

A call of a query describes a record: the slots of the query but for the one that selects, in order,
with the literals that the call gives by keyword and nothing in all others. A call that describes a
record adds it after the other records of its entity, and a call that describes none changes nothing.
So a domain starts with the records that its file describes, all of them and in the order of the file.
-/
namespace TaskDialogue

namespace Entity

theorem isSome_find?_iff {attr : String} {attributes : List (String × Value)} :
    (find? attr attributes).isSome ↔ attr ∈ attributes.map (·.1) := by
  induction attributes with
  | nil => simp [find?]
  | cons a rest ih =>
    obtain ⟨name, value⟩ := a
    by_cases hname : name = attr
    · simp [find?, hname]
    · simp [find?, hname, ih, Ne.symm hname]

/-- Only the first attribute of the name gets the value. -/
theorem getElem?_replace (attr : String) (value : Value) (attributes : List (String × Value)) (i : Nat) :
    (replace attr value attributes)[i]? = attributes[i]?.map fun a =>
      if a.1 = attr ∧ (attributes.map (·.1)).idxOf attr = i then (a.1, value) else a := by
  induction attributes generalizing i with
  | nil => simp [replace]
  | cons a rest ih =>
    obtain ⟨name, old⟩ := a
    by_cases hname : name = attr
    · cases i <;> simp [replace, hname]
    · cases i with
      | zero => simp [replace, hname]
      | succ i =>
        have hfirst : (name :: rest.map (·.1)).idxOf attr = (rest.map (·.1)).idxOf attr + 1 := by
          rw [List.idxOf_cons, beq_eq_false_iff_ne.mpr hname, cond_false]
        rw [replace, if_neg hname, List.getElem?_cons_succ, List.getElem?_cons_succ, ih, List.map_cons,
          hfirst]
        simp only [Nat.add_right_cancel_iff]

end Entity

namespace RecordCall

/-- The attributes of a record: all slots of its query but for the one that selects. -/
def attributeNames (schema : CommandSchema) : List String :=
  (schema.slots.map (·.name)).filter (· ≠ CommandSchema.selectSlot)

/-- The literal that keyword arguments give a name. -/
def given? (keywords : List Keyword) (name : String) : Option Value :=
  (keywords.find? (·.arg = name)).bind (·.value.constant?)

/-- A text that is a call of a command by keyword, which gives each name once. -/
structure Calls (registry : Registry) (text : String) (schema : CommandSchema)
    (keywords : List Keyword) : Prop where
  parsed : ∃ p func name, Program.parse text = .ok p ∧ p.call? = some (func, [], keywords) ∧
    func.name? = some name ∧ registry.get? name = some schema
  once : (keywords.map (·.arg)).Nodup

/-- The record that keyword arguments of a query describe. -/
structure Describes (schema : CommandSchema) (keywords : List Keyword) (record : Entity) : Prop where
  query : schema.kind = .query record.kind
  literal : ∀ k ∈ keywords, k.value.constant?.isSome
  known : ∀ k ∈ keywords, k.arg ∈ attributeNames schema
  length : record.attributes.length = (attributeNames schema).length
  attributes : ∀ i name, (attributeNames schema)[i]? = some name → record.attributes[i]? =
    some (name, if (attributeNames schema).idxOf name = i then (given? keywords name).getD .none else .none)

variable {entity : String} {keywords : List Keyword} {attributes filled : List (String × Value)}

/-! ### Filling in keywords -/

theorem fill_cons_ok {k : Keyword} : fill entity (k :: keywords) attributes = .ok filled ↔
    ∃ value, k.value.constant? = some value ∧ k.arg ∈ attributes.map (·.1) ∧
      fill entity keywords (Entity.replace k.arg value attributes) = .ok filled := by
  obtain ⟨arg, e, span⟩ := k
  rw [fill]
  cases hconstant : e.constant? with
  | none => simp
  | some value =>
    have hiff : (Entity.find? arg attributes).isSome ↔ arg ∈ attributes.map (·.1) :=
      Entity.isSome_find?_iff
    cases hfind : Entity.find? arg attributes <;> simp_all

/-- Keywords can be filled in when all are literals for attributes. -/
theorem exists_fill (entity : String) (attributes : List (String × Value))
    (hliteral : ∀ k ∈ keywords, k.value.constant?.isSome)
    (hknown : ∀ k ∈ keywords, k.arg ∈ attributes.map (·.1)) :
    ∃ filled, fill entity keywords attributes = .ok filled := by
  induction keywords generalizing attributes with
  | nil => exact ⟨attributes, rfl⟩
  | cons k keywords ih =>
    obtain ⟨hk, hliteral⟩ := List.forall_mem_cons.mp hliteral
    obtain ⟨hmem, hknown⟩ := List.forall_mem_cons.mp hknown
    obtain ⟨value, hvalue⟩ := Option.isSome_iff_exists.mp hk
    obtain ⟨filled, hfilled⟩ := ih (Entity.replace k.arg value attributes) hliteral
      (by simpa using hknown)
    exact ⟨filled, fill_cons_ok.mpr ⟨value, hvalue, hmem, hfilled⟩⟩

theorem of_fill (h : fill entity keywords attributes = .ok filled) :
    (∀ k ∈ keywords, k.value.constant?.isSome) ∧ (∀ k ∈ keywords, k.arg ∈ attributes.map (·.1)) ∧
      filled.map (·.1) = attributes.map (·.1) := by
  induction keywords generalizing attributes with
  | nil =>
    obtain rfl := Except.ok.inj h
    simp
  | cons k keywords ih =>
    obtain ⟨value, hvalue, hmem, hrest⟩ := fill_cons_ok.mp h
    obtain ⟨hliteral, hknown, hnames⟩ := ih hrest
    rw [Entity.replace_names] at hknown hnames
    exact ⟨List.forall_mem_cons.mpr ⟨by simp [hvalue], hliteral⟩,
      List.forall_mem_cons.mpr ⟨hmem, hknown⟩, hnames⟩

/-- By induction on the keywords: the name of the first one is given no more after it, so what it
wrote stays. -/
theorem getElem?_fill (honce : (keywords.map (·.arg)).Nodup)
    (h : fill entity keywords attributes = .ok filled) {i : Nat} {name : String} {old : Value}
    (hi : attributes[i]? = some (name, old)) :
    filled[i]? = some (name,
      if (attributes.map (·.1)).idxOf name = i then (given? keywords name).getD old else old) := by
  induction keywords generalizing attributes old with
  | nil =>
    obtain rfl := Except.ok.inj h
    simp [hi, given?]
  | cons k keywords ih =>
    obtain ⟨hnew, honce⟩ := List.nodup_cons.mp honce
    obtain ⟨value, hvalue, -, hrest⟩ := fill_cons_ok.mp h
    have hafter := Entity.getElem?_replace k.arg value attributes i
    rw [hi, Option.map_some] at hafter
    by_cases hname : name = k.arg
    · subst hname
      have hnone : given? keywords k.arg = none := by
        have hfind : keywords.find? (·.arg = k.arg) = none := by
          rw [List.find?_eq_none]
          intro other hother hsame
          exact hnew (List.mem_map.mpr ⟨other, hother, of_decide_eq_true hsame⟩)
        rw [given?, hfind, Option.bind_none]
      have hgiven : given? (k :: keywords) k.arg = some value := by simp [given?, hvalue]
      by_cases hfirst : (attributes.map (·.1)).idxOf k.arg = i
      · simp only [hfirst, and_self, if_true] at hafter
        rw [ih honce hrest hafter, Entity.replace_names, hnone, hgiven, if_pos hfirst, if_pos hfirst]
        rfl
      · simp only [hfirst, and_false, if_false] at hafter
        rw [ih honce hrest hafter, Entity.replace_names, if_neg hfirst, if_neg hfirst]
    · simp only [hname, false_and, if_false] at hafter
      have hgiven : given? (k :: keywords) name = given? keywords name := by
        simp [given?, Ne.symm hname]
      rw [ih honce hrest hafter, Entity.replace_names, hgiven]

/-! ### The record of a call -/

variable {registry : Registry} {text : String} {schema : CommandSchema} {record other : Entity}

/-- A call describes one record at most. -/
theorem Describes.unique (h : Describes schema keywords record) (hother : Describes schema keywords other) :
    record = other := by
  obtain ⟨kind, attributes⟩ := record
  obtain ⟨otherKind, otherAttributes⟩ := other
  obtain rfl : kind = otherKind := CommandKind.query.inj (h.query.symm.trans hother.query)
  refine congrArg (Entity.mk kind) (List.ext_getElem? fun i => ?_)
  cases hname : (attributeNames schema)[i]? with
  | some name => exact (h.attributes i name hname).trans (hother.attributes i name hname).symm
  | none =>
    have hi := List.getElem?_eq_none_iff.mp hname
    change attributes[i]? = otherAttributes[i]?
    rw [List.getElem?_eq_none (h.length ▸ hi), List.getElem?_eq_none (hother.length ▸ hi)]

theorem describes_fill (honce : (keywords.map (·.arg)).Nodup) (hquery : schema.kind = .query entity)
    (h : fill entity keywords ((attributeNames schema).map (·, .none)) = .ok filled) :
    Describes schema keywords ⟨entity, filled⟩ := by
  obtain ⟨hliteral, hknown, hnames⟩ := of_fill h
  have hempty : ((attributeNames schema).map (·, Value.none)).map (·.1) = attributeNames schema := by
    simp [Function.comp_def]
  rw [hempty] at hknown hnames
  refine ⟨hquery, hliteral, hknown, by rw [← hnames, List.length_map], fun i name hname => ?_⟩
  have hi : ((attributeNames schema).map (·, Value.none))[i]? = some (name, .none) := by simp [hname]
  have hfilled := getElem?_fill honce h hi
  rwa [hempty] at hfilled

/-- The names of keyword arguments in a text differ. -/
theorem nodup_of_call? {p : Program} {func : Expr} {args : List Expr}
    (hparse : Program.parse text = .ok p) (hcall : p.call? = some (func, args, keywords)) :
    (keywords.map (·.arg)).Nodup := by
  have hwell := Program.wellFormed_of_parse hparse
  unfold Program.call? Program.single? at hcall
  split at hcall
  · next hstmt =>
    split at hstmt
    · next stmt hbody =>
      obtain rfl := Option.some.inj hstmt
      obtain ⟨rfl, rfl, rfl⟩ := Option.some.inj hcall
      have hstmt := hwell _ (hbody ▸ List.mem_cons_self)
      obtain ⟨-, -, -, hnodup⟩ := hstmt.names _ List.mem_cons_self
      exact hnodup
    · simp at hstmt
  · simp at hcall

theorem calls_of_read (h : read registry text = .ok record) : ∃ schema keywords,
    Calls registry text schema keywords ∧ schema.kind = .query record.kind ∧
      fill record.kind keywords ((attributeNames schema).map (·, .none)) = .ok record.attributes := by
  unfold read at h
  split at h
  · simp at h
  · next p hparse =>
    split at h
    · simp at h
    · next func args keywords hcall =>
      split at h
      · simp at h
      · next hargs =>
        obtain rfl : args = [] := by simpa using hargs
        split at h
        · simp at h
        · next name hname =>
          split at h
          · simp at h
          · next schema hschema =>
            split at h
            · next entity hquery =>
              obtain ⟨filled, hfilled, rfl⟩ := map_eq_ok.mp h
              exact ⟨schema, keywords, ⟨⟨p, func, name, hparse, hcall, hname, hschema⟩,
                nodup_of_call? hparse hcall⟩, hquery, hfilled⟩
            · simp at h

theorem read_of_calls (h : Calls registry text schema keywords) (hquery : schema.kind = .query entity) :
    read registry text =
      (fill entity keywords ((attributeNames schema).map (·, .none))).map (Entity.mk entity) := by
  obtain ⟨p, func, name, hparse, hcall, hname, hschema⟩ := h.parsed
  have hnoargs : ¬(!([] : List Expr).isEmpty) = true := by simp
  unfold read
  rw [hparse]
  dsimp only
  rw [hcall]
  dsimp only
  rw [if_neg hnoargs, hname]
  dsimp only
  rw [hschema]
  dsimp only
  rw [hquery]
  rfl

/-- What is read off a text is the record that it describes. -/
theorem read_eq_ok_iff : read registry text = .ok record ↔
    ∃ schema keywords, Calls registry text schema keywords ∧ Describes schema keywords record := by
  constructor
  · intro h
    obtain ⟨schema, keywords, hcalls, hquery, hfilled⟩ := calls_of_read h
    exact ⟨schema, keywords, hcalls, describes_fill hcalls.once hquery hfilled⟩
  · rintro ⟨schema, keywords, hcalls, hrecord⟩
    obtain ⟨filled, hfilled⟩ := exists_fill record.kind
      ((attributeNames schema).map (·, .none)) hrecord.literal
      (by simpa [Function.comp_def] using hrecord.known)
    rw [read_of_calls hcalls hrecord.query, hfilled,
      hrecord.unique (describes_fill hcalls.once hrecord.query hfilled)]
    rfl

end RecordCall

namespace AppContext

variable {registry : Registry} {text : String} {record : Entity} {context next : AppContext}

/-- The context after calls of which some may be refused. -/
def afterCalls (registry : Registry) (texts : List String) (context : AppContext) : AppContext :=
  texts.foldl (fun context text => (context.addRecordCall registry text).2) context

/-- The record of a call, if it describes one. -/
def recordOf? (registry : Registry) (text : String) : Option Entity :=
  (RecordCall.read registry text).toOption

theorem recordOf?_eq_some_iff : recordOf? registry text = some record ↔
    ∃ schema keywords, RecordCall.Calls registry text schema keywords ∧
      RecordCall.Describes schema keywords record := by
  rw [← RecordCall.read_eq_ok_iff, recordOf?]
  cases RecordCall.read registry text <;> simp [Except.toOption]

/-- A call answers the record that it describes. -/
theorem addRecordCall_eq_ok_iff :
    (context.addRecordCall registry text).1 = .ok record ↔ recordOf? registry text = some record := by
  unfold addRecordCall recordOf?
  cases RecordCall.read registry text <;> simp [Except.toOption]

/-- A call adds its record, or nothing. -/
theorem addRecordCall_snd (registry : Registry) (context : AppContext) (text : String) :
    (context.addRecordCall registry text).2 =
      (recordOf? registry text).elim context context.insert := by
  unfold addRecordCall recordOf?
  cases RecordCall.read registry text <;> rfl

theorem addRecordCall_of_ok (h : (context.addRecordCall registry text).1 = .ok record) :
    (context.addRecordCall registry text).2 = context.insert record := by
  rw [addRecordCall_snd, addRecordCall_eq_ok_iff.mp h, Option.elim_some]

/-- A call that is refused describes no record, so it adds none. -/
theorem addRecordCall_of_error {e : SchemaError}
    (h : (context.addRecordCall registry text).1 = .error e) :
    (context.addRecordCall registry text).2 = context := by
  rw [addRecordCall_snd]
  cases hrecord : recordOf? registry text with
  | none => rfl
  | some record =>
    rw [addRecordCall_eq_ok_iff.mpr hrecord] at h
    cases h

/-- By induction on the calls: each adds the record that it describes to the end. -/
theorem records_afterCalls (registry : Registry) (texts : List String) (context : AppContext)
    (kind : String) : (afterCalls registry texts context).records kind =
      context.records kind ++ (texts.filterMap (recordOf? registry)).filter (·.kind = kind) := by
  induction texts generalizing context with
  | nil => exact (List.append_nil _).symm
  | cons text rest ih =>
    rw [afterCalls, List.foldl_cons, ← afterCalls, ih, addRecordCall_snd]
    cases hrecord : recordOf? registry text with
    | none => rw [List.filterMap_cons_none hrecord, Option.elim_none]
    | some record =>
      rw [List.filterMap_cons_some hrecord, Option.elim_some, records_insert]
      by_cases hkind : record.kind = kind <;> simp [hkind]

theorem addRecordCalls_cons_ok {rest : List String} :
    addRecordCalls registry (text :: rest) context = (.ok (), next) ↔
      (∃ record, (context.addRecordCall registry text).1 = .ok record) ∧
        addRecordCalls registry rest (context.addRecordCall registry text).2 = (.ok (), next) := by
  rw [addRecordCalls, stepAll]
  rcases context.addRecordCall registry text with ⟨e | record, middle⟩
  · simp
  · simp [addRecordCalls]

/-- Calls of which none is refused all describe a record. -/
theorem addRecordCalls_ok {texts : List String}
    (h : addRecordCalls registry texts context = (.ok (), next)) :
    next = afterCalls registry texts context ∧
      ∀ text ∈ texts, ∃ record, recordOf? registry text = some record := by
  induction texts generalizing context with
  | nil =>
    obtain rfl := (Prod.mk.inj h).2
    exact ⟨rfl, by simp⟩
  | cons text rest ih =>
    obtain ⟨⟨record, hrecord⟩, hrest⟩ := addRecordCalls_cons_ok.mp h
    obtain ⟨rfl, hall⟩ := ih hrest
    exact ⟨rfl, List.forall_mem_cons.mpr ⟨⟨record, addRecordCall_eq_ok_iff.mp hrecord⟩, hall⟩⟩

/-- A call that is refused changes nothing. One that is not is a call that describes a record, and it
adds this record to the end of the records of its entity and leaves those of all others. So calls one
after another add what they describe in their order, and a domain starts with the records of its
file. -/
theorem records_loaded (registry : Registry) :
    (∀ context text e, (addRecordCall context registry text).1 = .error e →
      (addRecordCall context registry text).2 = context) ∧
    (∀ context text record, (addRecordCall context registry text).1 = .ok record ↔
      ∃ schema keywords, RecordCall.Calls registry text schema keywords ∧
        RecordCall.Describes schema keywords record) ∧
    (∀ context text record, (addRecordCall context registry text).1 = .ok record →
      let next := (addRecordCall context registry text).2
      next.records record.kind = context.records record.kind ++ [record] ∧
      ∀ kind, kind ≠ record.kind → next.records kind = context.records kind) ∧
    (∀ texts context kind, (afterCalls registry texts context).records kind =
      context.records kind ++ (texts.filterMap (recordOf? registry)).filter (·.kind = kind)) ∧
    ∀ (d : DomainSchema) (D : Domain), d.build = .ok D →
      (∀ text ∈ d.records, ∃ record, recordOf? D.registry text = some record) ∧
      ∀ kind, D.context.records kind =
        (d.records.filterMap (recordOf? D.registry)).filter (·.kind = kind) := by
  refine ⟨fun _ _ _ => addRecordCall_of_error,
    fun _ _ _ => addRecordCall_eq_ok_iff.trans recordOf?_eq_some_iff,
    fun context text record h => ?_, records_afterCalls registry, fun d D hbuild => ?_⟩
  · rw [addRecordCall_of_ok h]
    refine ⟨by simp [records_insert], fun kind hkind => ?_⟩
    rw [records_insert, if_neg (Ne.symm hkind)]
  · obtain ⟨p, -, context, hcontext, rfl⟩ := DomainSchema.build_eq_ok.mp hbuild
    obtain ⟨rfl, hall⟩ := addRecordCalls_ok hcontext
    exact ⟨hall, fun kind => by
      rw [records_afterCalls, show AppContext.empty.records kind = [] from rfl, List.nil_append]⟩

/-- Of three alarms one has no known attribute, and one is given a text that is no literal. -/
theorem records_loaded_alarm :
    let registry := Registry.ofSchemas [.query ⟨"alarm", [("time", .str), ("label", .str)]⟩]
    let swim : Entity := ⟨"alarm", [("time", .none), ("label", .str "swim")]⟩
    let asked := addRecordCall .empty registry "find_alarm(label=\"swim\")"
    let refused := asked.2.addRecordCall registry "find_alarm(volume=3)"
    (asked.1 = .ok swim ∧ asked.2.records "alarm" = [swim]) ∧
      ((∃ e, refused.1 = .error e) ∧ refused.2 = asked.2) ∧
      (afterCalls registry ["find_alarm(label=\"swim\")", "find_alarm(volume=3)",
        "find_alarm(time=x1)"] .empty).records "alarm" = [swim] := by
  intro registry swim asked refused
  obtain ⟨hrefused, -, hadded, hafter, -⟩ := records_loaded registry
  have hasked : asked.1 = .ok swim := addRecordCall_eq_ok_iff.mpr (by decide +kernel)
  have hnone : refused.1.toOption = none := by decide +kernel
  refine ⟨⟨hasked, (hadded _ _ _ hasked).1⟩, ?_, ?_⟩
  · cases hanswer : refused.1 with
    | ok record => simp [hanswer, Except.toOption] at hnone
    | error e => exact ⟨⟨e, rfl⟩, hrefused _ _ _ hanswer⟩
  · rw [hafter]
    decide +kernel

end AppContext

end TaskDialogue
