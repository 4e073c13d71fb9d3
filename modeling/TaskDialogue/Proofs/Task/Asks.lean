import TaskDialogue.Proofs.Store.Writes
import Mathlib.Data.List.Nodup

/-!
# What a task will ask for

A command asks for its empty required slots, in the order of the schema, and for the
confirmation after them. What it recommends is the first of these requests. To perform a
command or to note that a recommendation was followed changes none of them. An answer takes
the first away, and only a write that takes something back adds one.
-/
namespace TaskDialogue

namespace Command

/-- The names of the required slots without a value, among slots with their values. -/
def missingIn (slots : List SlotSchema) (values : List Value) : List String :=
  ((slots.zip values).filter fun s => s.1.required && s.2.isNone).map (·.1.name)

/-- The required slots without a value. -/
def missing (c : Command) : List String := missingIn c.schema.slots c.values

/-- Whether a confirmation is required and was not given. -/
def unconfirmed (c : Command) : Bool := c.schema.confirmationRequired && !c.confirmed

/-- All that the task will ask for, in order. -/
def asks (c : Command) : List RecommendedAction :=
  c.missing.map .askValue ++ if c.unconfirmed then [.askConfirmation] else []

variable {c c' : Command} {attr : String} {v : Value}

theorem length_asks (c : Command) :
    c.asks.length = c.missing.length + if c.unconfirmed then 1 else 0 := by
  cases h : c.unconfirmed <;> simp [asks, h]

theorem recommend?_eq_head? (c : Command) : c.recommend? = c.asks.head? := by
  simp only [recommend?, slotStatus, asks, missing, missingIn, List.head?_append, List.map_map,
    List.head?_map, List.head?_filter]
  cases (c.schema.slots.zip c.values).find? fun s => s.1.required && s.2.isNone with
  | some s => rfl
  | none =>
    rw [← unconfirmed]
    cases c.unconfirmed <;> rfl

/-- A task asks for nothing when no required slot is empty and the confirmation, if one is
required, was given. -/
theorem recommend?_eq_none_iff :
    c.recommend? = none ↔
      (∀ s ∈ c.schema.slots.zip c.values, s.1.required = true → s.2.isNone = false) ∧
        (c.schema.confirmationRequired = true → c.confirmed = true) := by
  rw [recommend?_eq_head?, List.head?_eq_none_iff, asks, List.append_eq_nil_iff, missing,
    missingIn]
  refine and_congr (by simp) ?_
  cases hrequired : c.schema.confirmationRequired <;> cases hconfirmed : c.confirmed <;>
    simp [unconfirmed, hrequired, hconfirmed]

@[simp] theorem recommend?_notify (action : String) (c : Command) :
    (c.notify action).recommend? = c.recommend? := rfl

/-! ### Answers -/

theorem set_confirmed (c : Command) (b : Bool) :
    c.set confirmedAttr (.bool b) = .ok { c with confirmed := b } := by
  simp [set]

theorem set_slot {position : Nat} {slot : SlotSchema} (hattr : attr ≠ confirmedAttr)
    (hposition : c.schema.position? attr = some position)
    (hslot : c.schema.slots[position]? = some slot) (haccepts : slot.type.accepts v = true) :
    c.set attr v = .ok { c with values := c.values.set position v } := by
  have htype : (c.schema.slots.map (·.type)).getD position .any = slot.type := by
    simp [List.getD, hslot]
  simp only [set, hattr, if_false, slotPosition, hposition, bind, Except.bind, pure, Except.pure,
    htype, haccepts, if_true]

theorem missingIn_cons (slot : SlotSchema) (slots : List SlotSchema) (v : Value)
    (values : List Value) :
    missingIn (slot :: slots) (v :: values) =
      if slot.required && v.isNone then slot.name :: missingIn slots values
      else missingIn slots values := by
  simp only [missingIn, List.zip_cons_cons, List.filter_cons]
  split <;> rfl

theorem missingIn_sublist (slots : List SlotSchema) (values : List Value) :
    (missingIn slots values).Sublist (slots.map (·.name)) := by
  induction slots generalizing values with
  | nil => exact .slnil
  | cons slot slots ih =>
    cases values with
    | nil => exact List.nil_sublist _
    | cons v values =>
      rw [missingIn_cons, List.map_cons]
      split
      · exact (ih values).cons_cons _
      · exact (ih values).cons _

/-- A value in a slot takes its name from what is missing. -/
theorem missingIn_set (slots : List SlotSchema) (values : List Value) {position : Nat}
    {slot : SlotSchema} (hnames : (slots.map (·.name)).Nodup)
    (hslot : slots[position]? = some slot) (hv : v.isNone = false) :
    missingIn slots (values.set position v) =
      (missingIn slots values).filter (· ≠ slot.name) := by
  induction slots generalizing values position with
  | nil => rfl
  | cons first slots ih =>
    rw [List.map_cons, List.nodup_cons] at hnames
    cases values with
    | nil => rfl
    | cons w values =>
      cases position with
      | zero =>
        simp only [List.getElem?_cons_zero, Option.some.injEq] at hslot
        subst hslot
        have hother : (missingIn slots values).filter (· ≠ first.name) = missingIn slots values := by
          refine List.filter_eq_self.mpr fun name hname => ?_
          have hmem := (missingIn_sublist slots values).subset hname
          exact decide_eq_true fun heq => hnames.1 (heq ▸ hmem)
        rw [List.set_cons_zero, missingIn_cons, missingIn_cons, hv, Bool.and_false]
        cases first.required && w.isNone <;> simpa using hother.symm
      | succ position =>
        rw [List.getElem?_cons_succ] at hslot
        have hne : first.name ≠ slot.name := fun heq =>
          hnames.1 (heq ▸ List.mem_map_of_mem (List.mem_of_getElem? hslot))
        have hrest := ih values hnames.2 hslot
        rw [List.set_cons_succ, missingIn_cons, missingIn_cons, hrest]
        cases first.required && w.isNone <;> simp [hne]

/-- A value of the right type for what is missing first. -/
theorem set_missing {name : String} {rest : List String} {slot : SlotSchema}
    (hnames : (c.schema.slots.map (·.name)).Nodup) (hname : name ≠ confirmedAttr)
    (hmissing : c.missing = name :: rest) (hslot : slot ∈ c.schema.slots) (heq : slot.name = name)
    (haccepts : slot.type.accepts v = true) (hv : v.isNone = false) :
    ∃ values, c.set name v = .ok { c with values } ∧
      missing { c with values } = rest := by
  obtain ⟨position, hposition⟩ : ∃ position, c.schema.position? name = some position := by
    refine Option.isSome_iff_exists.mp ?_
    simpa [CommandSchema.position?] using ⟨slot, hslot, heq⟩
  obtain ⟨other, hother, hsame⟩ := slots_position? hposition
  obtain rfl : other = slot := List.inj_on_of_nodup_map hnames (List.mem_of_getElem? hother) hslot
    (hsame.trans heq.symm)
  refine ⟨_, set_slot hname hposition hother haccepts, ?_⟩
  rw [missing, missingIn_set _ _ hnames hother hv, heq]
  have hnodup := hnames.sublist (missingIn_sublist c.schema.slots c.values)
  rw [← missing, hmissing] at hnodup ⊢
  rw [List.nodup_cons] at hnodup
  rw [List.filter_cons_of_neg (by simp), List.filter_eq_self]
  exact fun other hmem => decide_eq_true fun heq => hnodup.1 (heq ▸ hmem)

end Command

/-! ### What is taken back -/

/-- Whether a write leaves a task without something that it needs: it empties a required slot
or takes the confirmation back. -/
def CommandSchema.takesBack (schema : CommandSchema) (attr : String) (v : Value) : Bool :=
  if attr = confirmedAttr then schema.confirmationRequired && decide (v = .bool false)
  else v.isNone && (schema.position? attr).any fun position =>
    schema.slots[position]?.any (·.required)

namespace Command

variable {c c' : Command} {attr : String} {v : Value}

/-- A task that asks for nothing asks for nothing after a write that takes nothing back. -/
theorem recommend?_set (h : c.set attr v = .ok c') (hkeep : c.schema.takesBack attr v = false)
    (hc : c.recommend? = none) : c'.recommend? = none := by
  rw [recommend?_eq_none_iff] at hc ⊢
  obtain ⟨rfl, b, rfl, rfl⟩ | ⟨hattr, position, slot, hposition, hslot, -, rfl⟩ := set_cases h
  · refine ⟨hc.1, fun hrequired => ?_⟩
    simpa [CommandSchema.takesBack, show c.schema.confirmationRequired = true from hrequired]
      using hkeep
  · refine ⟨fun s hs hrequired => ?_, hc.2⟩
    obtain ⟨i, hi⟩ := List.mem_iff_getElem?.mp hs
    obtain ⟨hslots, hvalues⟩ := List.getElem?_zip_eq_some.mp hi
    rw [List.getElem?_set] at hvalues
    split at hvalues
    · next heq =>
      subst heq
      split at hvalues
      · rw [hslot, Option.some.injEq] at hslots
        rw [Option.some.injEq] at hvalues
        rw [← hvalues]
        simpa [CommandSchema.takesBack, hattr, hposition, hslot, hslots, hrequired] using hkeep
      · simp at hvalues
    · exact hc.1 s (List.mem_of_getElem? (List.getElem?_zip_eq_some.mpr ⟨hslots, hvalues⟩)) hrequired

end Command

namespace TaskObject

variable {o o' : TaskObject}

@[simp] theorem recommend?_notify (action : String) (o : TaskObject) :
    (o.notify action).recommend? = o.recommend? := by
  cases o <;> rfl

/-- To perform a task leaves it asking for what it asked for. -/
theorem recommend?_perform {context : AppContext} {output : Option ActionOutput}
    (h : o.perform context = .ok (output, o')) : o'.recommend? = o.recommend? := by
  obtain rfl | ⟨c, entity, rfl, -, -, rfl⟩ := perform_cases h <;> rfl

end TaskObject

end TaskDialogue
