import TaskDialogue.Proofs.Task.Registry
import TaskDialogue.Proofs.Turn.Allocation

/-!
# Building commands from calls

A call makes a command of the schema that its name is registered for, and writes its arguments, the
ones without a name first, to the names that they go to. What the slots hold in the end is said by
the list of these writes: the first slot of a name holds what was written under it last, and what is
written under the name of the confirmation is the confirmation, also if a slot has this name.
-/
namespace TaskDialogue

/-- The last of some writes under a name. -/
def lastWrite (name : String) (writes : List (String × Value)) : Option Value :=
  ((writes.filter (·.1 = name)).map (·.2)).getLast?

@[simp] theorem lastWrite_nil (name : String) : lastWrite name [] = none := rfl

@[simp] theorem lastWrite_append_singleton (name other : String) (v : Value)
    (writes : List (String × Value)) :
    lastWrite name (writes ++ [(other, v)]) =
      if other = name then some v else lastWrite name writes := by
  by_cases h : other = name <;> simp [lastWrite, h]

/-- A new command after some writes. -/
structure Command.BuiltFrom (schema : CommandSchema) (writes : List (String × Value))
    (c : Command) : Prop where
  schema_eq : c.schema = schema
  results : c.results = []
  followed : c.followed = []
  values_length : c.values.length = schema.slots.length
  values : ∀ (i : Nat) (slot : SlotSchema), schema.slots[i]? = some slot →
    slot.name ≠ confirmedAttr → c.values[i]? = some
      (if schema.position? slot.name = some i then (lastWrite slot.name writes).getD Value.none
        else .none)
  unwritten : ∀ (i : Nat) (slot : SlotSchema), schema.slots[i]? = some slot →
    slot.name = confirmedAttr → c.values[i]? = some Value.none
  confirmed : (lastWrite confirmedAttr writes).getD (.bool false) = .bool c.confirmed

/-- The ways in which a command refuses a write: it has no such slot, or the value is not of the
slot's type. -/
inductive ExecError.Refusal (command : String) : ExecError → Prop where
  | unknown (attr : String) : Refusal command (.unknownAttribute command attr)
  | type (attr expected found : String) : Refusal command (.slotType command attr expected found)

namespace Command

variable {schema : CommandSchema} {writes : List (String × Value)} {c c' : Command} {attr : String}
  {v : Value}

theorem set_error {e : ExecError} (h : c.set attr v = .error e) : e.Refusal c.name := by
  unfold set at h
  split at h
  · split at h
    · simp at h
    · simp only [Except.error.injEq] at h
      exact h ▸ .type ..
  · cases hposition : c.schema.position? attr with
    | none =>
      simp only [slotPosition, hposition, bind, Except.bind, Except.error.injEq] at h
      exact h ▸ .unknown ..
    | some position =>
      simp only [slotPosition, hposition, bind, Except.bind, pure, Except.pure] at h
      split at h
      · simp at h
      · simp only [Except.error.injEq] at h
        exact h ▸ .type ..

theorem name_of_set (h : c.set attr v = .ok c') : c'.name = c.name := by
  obtain ⟨-, _, -, rfl⟩ | ⟨-, _, _, -, -, -, rfl⟩ := set_cases h <;> rfl

theorem getElem?_ofSchema {i : Nat} {slot : SlotSchema} (h : schema.slots[i]? = some slot) :
    (ofSchema schema).values[i]? = some .none := by
  rw [ofSchema, List.getElem?_map, h, Option.map_some]

theorem builtFrom_ofSchema (schema : CommandSchema) : (ofSchema schema).BuiltFrom schema [] where
  schema_eq := rfl
  results := rfl
  followed := rfl
  values_length := by simp [ofSchema]
  values i slot hslot _ := by simp [getElem?_ofSchema hslot]
  unwritten i slot hslot _ := getElem?_ofSchema hslot
  confirmed := rfl

/-- A write is the last one from then on. -/
theorem BuiltFrom.set (hc : c.BuiltFrom schema writes) (h : c.set attr v = .ok c') :
    c'.BuiltFrom schema (writes ++ [(attr, v)]) := by
  obtain ⟨rfl, b, rfl, rfl⟩ | ⟨hattr, position, first, hposition, hfirst, -, rfl⟩ := set_cases h
  · refine ⟨hc.schema_eq, hc.results, hc.followed, hc.values_length, fun i slot hslot hname => ?_,
      hc.unwritten, by simp⟩
    rw [lastWrite_append_singleton, if_neg (Ne.symm hname)]
    exact hc.values i slot hslot hname
  · rw [hc.schema_eq] at hposition hfirst
    obtain ⟨slot', hslot', hname'⟩ := slots_position? hposition
    have hlt : position < c.values.length := by
      rw [hc.values_length]
      exact (List.getElem?_eq_some_iff.mp hfirst).1
    refine ⟨hc.schema_eq, hc.results, hc.followed, by simpa using hc.values_length,
      fun i slot hslot hname => ?_, fun i slot hslot hname => ?_, ?_⟩
    · rw [lastWrite_append_singleton]
      by_cases hi : position = i
      · subst hi
        obtain rfl : slot' = slot := Option.some.inj (hslot'.symm.trans hslot)
        subst hname'
        simp [hposition, hlt]
      · rw [List.getElem?_set_ne hi, hc.values i slot hslot hname]
        by_cases hsame : attr = slot.name
        · rw [← hsame, hposition, if_neg (by simpa using hi), if_neg (by simpa using hi)]
        · rw [if_neg hsame]
    · have hi : position ≠ i := by
        rintro rfl
        obtain rfl : slot' = slot := Option.some.inj (hslot'.symm.trans hslot)
        exact hattr (hname'.symm.trans hname)
      rw [List.getElem?_set_ne hi]
      exact hc.unwritten i slot hslot hname
    · rw [lastWrite_append_singleton, if_neg hattr]
      exact hc.confirmed

end Command

namespace Exec

variable {registry : Registry} {schema : CommandSchema} {writes : List (String × Value)}
  {command built : Command} {s t : State}

/-- By induction on the arguments: each is evaluated where the one before it ended, and is written to
the next name. -/
theorem fillPositional_ok {es : List Expr} {slots : List String} (hc : command.BuiltFrom schema writes)
    (hslots : es.length ≤ slots.length)
    (h : fillPositional registry es slots command s = (.ok built, t)) :
    ∃ vs, evalAll registry es s = (.ok vs, t) ∧
      built.BuiltFrom schema (writes ++ slots.zip vs) := by
  induction es generalizing slots command s writes with
  | nil =>
    simp only [fillPositional, Prod.mk.injEq, Except.ok.injEq] at h
    obtain ⟨rfl, rfl⟩ := h
    exact ⟨[], rfl, by simpa using hc⟩
  | cons e es ih =>
    cases slots with
    | nil => simp at hslots
    | cons slot slots =>
      simp only [fillPositional] at h
      split at h
      · simp at h
      · next v u hv =>
        split at h
        · simp at h
        · next filled hset =>
          obtain ⟨vs, hvs, hbuilt⟩ := ih (hc.set hset) (by simpa using hslots) h
          refine ⟨v :: vs, by simp only [evalAll, hv, hvs], ?_⟩
          simpa using hbuilt

theorem fillKeywords_ok {keywords : List Keyword} (hc : command.BuiltFrom schema writes)
    (h : fillKeywords registry keywords command s = (.ok built, t)) :
    ∃ vs, evalAll registry (keywords.map (·.value)) s = (.ok vs, t) ∧
      built.BuiltFrom schema (writes ++ (keywords.map (·.arg)).zip vs) := by
  induction keywords generalizing command s writes with
  | nil =>
    simp only [fillKeywords, Prod.mk.injEq, Except.ok.injEq] at h
    obtain ⟨rfl, rfl⟩ := h
    exact ⟨[], rfl, by simpa using hc⟩
  | cons keyword keywords ih =>
    obtain ⟨slot, e, span⟩ := keyword
    simp only [fillKeywords] at h
    split at h
    · simp at h
    · next v u hv =>
      split at h
      · simp at h
      · next filled hset =>
        obtain ⟨vs, hvs, hbuilt⟩ := ih (hc.set hset) h
        refine ⟨v :: vs, by simp only [List.map_cons, evalAll, hv, hvs], ?_⟩
        simpa using hbuilt

/-- Arguments fail by themselves, or as they are written. -/
theorem fillPositional_error {es : List Expr} {slots : List String} {e : ExecError}
    (h : fillPositional registry es slots command s = (.error e, t)) :
    (∃ arg ∈ es, ∃ u, eval registry arg u = (.error e, t)) ∨ e.Refusal command.name := by
  induction es generalizing slots command s with
  | nil => simp [fillPositional] at h
  | cons arg es ih =>
    cases slots with
    | nil => simp [fillPositional] at h
    | cons slot slots =>
      simp only [fillPositional] at h
      split at h
      · next hfailed =>
        obtain ⟨rfl, rfl⟩ := by simpa using h
        exact .inl ⟨arg, List.mem_cons_self, s, hfailed⟩
      · split at h
        · next hset =>
          obtain ⟨rfl, rfl⟩ := by simpa using h
          exact .inr (Command.set_error hset)
        · next filled hset =>
          obtain ⟨other, hother, hfailed⟩ | hrefused := ih h
          · exact .inl ⟨other, List.mem_cons_of_mem _ hother, hfailed⟩
          · exact .inr (Command.name_of_set hset ▸ hrefused)

theorem fillKeywords_error {keywords : List Keyword} {e : ExecError}
    (h : fillKeywords registry keywords command s = (.error e, t)) :
    (∃ arg ∈ keywords.map (·.value), ∃ u, eval registry arg u = (.error e, t)) ∨
      e.Refusal command.name := by
  induction keywords generalizing command s with
  | nil => simp [fillKeywords] at h
  | cons keyword keywords ih =>
    obtain ⟨slot, arg, span⟩ := keyword
    simp only [fillKeywords] at h
    split at h
    · next hfailed =>
      obtain ⟨rfl, rfl⟩ := by simpa using h
      exact .inl ⟨arg, List.mem_cons_self, s, hfailed⟩
    · split at h
      · next hset =>
        obtain ⟨rfl, rfl⟩ := by simpa using h
        exact .inr (Command.set_error hset)
      · next filled hset =>
        obtain ⟨other, hother, hfailed⟩ | hrefused := ih h
        · exact .inl ⟨other, List.mem_cons_of_mem _ hother, hfailed⟩
        · exact .inr (Command.name_of_set hset ▸ hrefused)

section

variable {name : String} {args : List Expr} {keywords : List Keyword} {nameSpan span : Span}

theorem eval_call_unknown (hname : registry.get? name = none) :
    eval registry (.call (.name name nameSpan) args keywords span) s =
      (.error (.unknownCommand name), s) := by
  simp [eval, Expr.name?, Registry.build, hname]

theorem eval_call_tooMany (hname : registry.get? name = some schema)
    (hmany : schema.positional.length < args.length) :
    eval registry (.call (.name name nameSpan) args keywords span) s =
      (.error (.tooManyPositional name args.length schema.positional.length), s) := by
  simp [eval, Expr.name?, Registry.build, hname, Command.ofSchema, hmany]

/-- A call that takes all its arguments adds the command that is filled with them. -/
theorem eval_call_of_filled (hname : registry.get? name = some schema)
    (hfew : args.length ≤ schema.positional.length) {filled full : Command} {u w : State}
    (hargs : fillPositional registry args schema.positional (.ofSchema schema) s = (.ok filled, u))
    (hkeywords : fillKeywords registry keywords filled u = (.ok full, w)) :
    eval registry (.call (.name name nameSpan) args keywords span) s =
      (.ok (.object w.nextId), w.alloc (.command full)) := by
  have hschema : (Command.ofSchema schema).schema = schema := rfl
  simp only [eval, Expr.name?, Registry.build, hname, hschema, if_neg (Nat.not_lt.mpr hfew), hargs,
    hkeywords]

/-- A call with no more arguments than it has names for ends where one of its arguments fails or is
refused, or else with the filled command. -/
theorem eval_call_cases (hname : registry.get? name = some schema)
    (hfew : args.length ≤ schema.positional.length) (keywords : List Keyword) (nameSpan span : Span)
    (s : State) :
    (∃ e t, fillPositional registry args schema.positional (.ofSchema schema) s = (.error e, t) ∧
      eval registry (.call (.name name nameSpan) args keywords span) s = (.error e, t)) ∨
    ∃ filled u,
      fillPositional registry args schema.positional (.ofSchema schema) s = (.ok filled, u) ∧
      ((∃ e t, fillKeywords registry keywords filled u = (.error e, t) ∧
          eval registry (.call (.name name nameSpan) args keywords span) s = (.error e, t)) ∨
        ∃ full w, fillKeywords registry keywords filled u = (.ok full, w) ∧
          eval registry (.call (.name name nameSpan) args keywords span) s =
            (.ok (.object w.nextId), w.alloc (.command full))) := by
  have hschema : (Command.ofSchema schema).schema = schema := rfl
  cases hargs : fillPositional registry args schema.positional (.ofSchema schema) s with
  | mk result u =>
    cases result with
    | error e =>
      refine .inl ⟨e, u, rfl, ?_⟩
      simp only [eval, Expr.name?, Registry.build, hname, hschema, if_neg (Nat.not_lt.mpr hfew), hargs]
    | ok filled =>
      refine .inr ⟨filled, u, rfl, ?_⟩
      cases hkeywords : fillKeywords registry keywords filled u with
      | mk result w =>
        cases result with
        | error e =>
          refine .inl ⟨e, w, rfl, ?_⟩
          simp only [eval, Expr.name?, Registry.build, hname, hschema, if_neg (Nat.not_lt.mpr hfew),
            hargs, hkeywords]
        | ok full => exact .inr ⟨full, w, rfl, eval_call_of_filled hname hfew hargs hkeywords⟩

theorem eval_call_ok_builds (hname : registry.get? name = some schema)
    (hfew : args.length ≤ schema.positional.length) {v : Value}
    (h : eval registry (.call (.name name nameSpan) args keywords span) s = (.ok v, t)) :
    ∃ c vs ws u w, evalAll registry args s = (.ok vs, u) ∧
      evalAll registry (keywords.map (·.value)) u = (.ok ws, w) ∧
        v = .object w.objects.length ∧ t = w.alloc (.command c) ∧
          c.BuiltFrom schema (schema.positional.zip vs ++ (keywords.map (·.arg)).zip ws) := by
  obtain ⟨_, _, -, hended⟩ | ⟨filled, u, hargs, ⟨_, _, -, hended⟩ | ⟨full, w, hkeywords, hended⟩⟩ :=
    eval_call_cases hname hfew keywords nameSpan span s
  · simp [h] at hended
  · simp [h] at hended
  · obtain ⟨vs, hvs, hfilled⟩ := fillPositional_ok (Command.builtFrom_ofSchema schema) hfew hargs
    obtain ⟨ws, hws, hfull⟩ := fillKeywords_ok hfilled hkeywords
    obtain ⟨hv, rfl⟩ := Prod.mk.inj (h.symm.trans hended)
    exact ⟨full, vs, ws, u, w, hvs, hws, Except.ok.inj hv, rfl, hfull⟩

theorem eval_call_error (hname : registry.get? name = some schema)
    (hfew : args.length ≤ schema.positional.length) {e : ExecError}
    (h : eval registry (.call (.name name nameSpan) args keywords span) s = (.error e, t)) :
    (∃ arg ∈ args ++ keywords.map (·.value), ∃ u, eval registry arg u = (.error e, t)) ∨
      e.Refusal name := by
  obtain rfl : schema.name = name := Registry.name_of_get? hname
  obtain ⟨_, _, hargs, hended⟩ | ⟨filled, u, hargs, ⟨_, _, hkeywords, hended⟩ | ⟨_, _, -, hended⟩⟩ :=
    eval_call_cases hname hfew keywords nameSpan span s
  · obtain ⟨he, rfl⟩ := Prod.mk.inj (h.symm.trans hended)
    obtain rfl := Except.error.inj he
    obtain ⟨arg, harg, hfailed⟩ | hrefused := fillPositional_error hargs
    · exact .inl ⟨arg, List.mem_append_left _ harg, hfailed⟩
    · exact .inr hrefused
  · obtain ⟨he, rfl⟩ := Prod.mk.inj (h.symm.trans hended)
    obtain rfl := Except.error.inj he
    obtain ⟨vs, -, hfilled⟩ := fillPositional_ok (Command.builtFrom_ofSchema schema) hfew hargs
    obtain ⟨arg, harg, hfailed⟩ | hrefused := fillKeywords_error hkeywords
    · exact .inl ⟨arg, List.mem_append_right _ harg, hfailed⟩
    · rw [Command.name, hfilled.schema_eq] at hrefused
      exact .inr hrefused
  · simp [h] at hended

end

/-- The value of a call is the command that it has added last: one of the schema that the name is
registered for, with the arguments written to it in order, each where the evaluation of the one
before it ended. A call of a name that is not registered, or one with more arguments without a name
than the command has names for, fails before it evaluates anything; any other call fails only as one
of its arguments does, or because the command refuses a write. -/
theorem command_of_call (registry : Registry) (name : String) (args : List Expr)
    (keywords : List Keyword) (nameSpan span : Span) (s : State) :
    let call := Expr.call (.name name nameSpan) args keywords span
    (∀ v t, eval registry call s = (.ok v, t) →
      ∃ schema c vs ws u w, registry.get? name = some schema ∧
        evalAll registry args s = (.ok vs, u) ∧
        evalAll registry (keywords.map (·.value)) u = (.ok ws, w) ∧
        v = .object w.objects.length ∧ t = w.alloc (.command c) ∧
        c.BuiltFrom schema (schema.positional.zip vs ++ (keywords.map (·.arg)).zip ws)) ∧
    (registry.get? name = none → eval registry call s = (.error (.unknownCommand name), s)) ∧
    ∀ schema, registry.get? name = some schema →
      (schema.positional.length < args.length → eval registry call s =
        (.error (.tooManyPositional name args.length schema.positional.length), s)) ∧
      (args.length ≤ schema.positional.length → ∀ e t, eval registry call s = (.error e, t) →
        (∃ arg ∈ args ++ keywords.map (·.value), ∃ u, eval registry arg u = (.error e, t)) ∨
          e.Refusal name) := by
  intro call
  refine ⟨fun v t h => ?_, eval_call_unknown, fun schema hname =>
    ⟨eval_call_tooMany hname, fun hfew e t => eval_call_error hname hfew⟩⟩
  cases hname : registry.get? name with
  | none =>
    rw [eval_call_unknown hname] at h
    simp at h
  | some schema =>
    obtain hmany | hfew := Nat.lt_or_ge schema.positional.length args.length
    · rw [eval_call_tooMany hname hmany] at h
      simp at h
    · obtain ⟨c, vs, ws, u, w, hbuilt⟩ := eval_call_ok_builds hname hfew h
      exact ⟨schema, c, vs, ws, u, w, rfl, hbuilt⟩

/-- A slot that is given twice, once without its name, holds what was given last. -/
theorem command_of_call_alarm :
    let here := Span.none
    let schema : CommandSchema := ⟨"create_alarm", .intent,
      [.optional "time" .str, .optional "label" .str], ["time"], false, none⟩
    let registry := Registry.ofSchemas [schema]
    let call := Expr.call (.name "create_alarm" here) [.str "8:30" here]
      [⟨"time", .str "9:00" here, here⟩, ⟨"confirmed", .bool true here, here⟩] here
    ∃ c t, eval registry call (.new .empty) = (.ok (.object 0), t) ∧ t.object 0 = .command c ∧
      c.values[0]? = some (.str "9:00") ∧ c.values[1]? = some .none ∧ c.confirmed = true := by
  intro here schema registry call
  have hname : registry.get? "create_alarm" = some schema := Registry.get?_ofSchemas _ _
  have hfew : [Expr.str "8:30" here].length ≤ schema.positional.length := Nat.le_refl 1
  have hok : (eval registry call (.new .empty)).1 = .ok (.object 0) := by
    rw [eval_call_of_filled hname hfew rfl rfl]
    rfl
  obtain ⟨found, c, vs, ws, u, w, hfound, hvs, hws, hv, ht, hbuilt⟩ :=
    (command_of_call registry "create_alarm" [.str "8:30" here]
      [⟨"time", .str "9:00" here, here⟩, ⟨"confirmed", .bool true here, here⟩] here here
      (.new .empty)).1 _ _ (Prod.ext hok rfl)
  obtain rfl := Option.some.inj (hname.symm.trans hfound)
  obtain ⟨rfl, rfl⟩ : [.str "8:30"] = vs ∧ State.new .empty = u := by simpa using Prod.mk.inj hvs
  obtain ⟨rfl, rfl⟩ : [.str "9:00", .bool true] = ws ∧ State.new .empty = w := by
    simpa using Prod.mk.inj hws
  refine ⟨c, _, Prod.ext hok ht, rfl, ?_, ?_, ?_⟩
  · exact hbuilt.values 0 (.optional "time" .str) rfl (by decide)
  · exact hbuilt.values 1 (.optional "label" .str) rfl (by decide)
  · have hconfirmed : Value.bool true = .bool c.confirmed := hbuilt.confirmed
    exact (Value.bool.inj hconfirmed).symm

/-- A slot with the name of the confirmation holds nothing after it was written to, though it is the
first slot of its name. -/
theorem confirmed_slot_unwritten :
    let here := Span.none
    let schema : CommandSchema :=
      ⟨"book_room", .intent, [.optional "confirmed" .bool], [], false, none⟩
    let registry := Registry.ofSchemas [schema]
    let call := Expr.call (.name "book_room" here) []
      [⟨"confirmed", .bool true here, here⟩] here
    let c : Command := ⟨schema, [.none], true, [], []⟩
    eval registry call (.new .empty) = (.ok (.object 0), (State.new .empty).alloc (.command c)) ∧
      ¬ ∀ (i : Nat) (slot : SlotSchema), schema.slots[i]? = some slot →
        c.values[i]? = some
          (if schema.position? slot.name = some i then
            (lastWrite slot.name [("confirmed", .bool true)]).getD Value.none else Value.none) := by
  intro here schema registry call c
  have hname : registry.get? "book_room" = some schema := Registry.get?_ofSchemas _ _
  have hfew : ([] : List Expr).length ≤ schema.positional.length := Nat.le_refl 0
  have hargs : fillPositional registry [] schema.positional (.ofSchema schema) (.new .empty) =
      (.ok (.ofSchema schema), .new .empty) := rfl
  have hkeywords : fillKeywords registry [⟨"confirmed", .bool true here, here⟩] (.ofSchema schema)
      (.new .empty) = (.ok c, .new .empty) := rfl
  refine ⟨eval_call_of_filled hname hfew hargs hkeywords, fun h => ?_⟩
  have hslot := h 0 (.optional "confirmed" .bool) rfl
  simp [c, schema, CommandSchema.position?, SlotSchema.optional, lastWrite] at hslot

end Exec

end TaskDialogue
