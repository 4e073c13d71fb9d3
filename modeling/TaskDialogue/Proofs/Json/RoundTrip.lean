import TaskDialogue.Json.Reader
import TaskDialogue.Proofs.Json.Readable

/-!
# Written values are read back

The compact text of a readable value is read as that value, whatever follows it, as long as a number
at its end is not continued.
-/
namespace TaskDialogue.Json

variable {fuel depth : Nat} {rest : List Char} {c : Char} {j : Json}

/-! ### Lists with commas -/

/-- What stands before an item. -/
def separator (first : Bool) : List Char := if first then [] else [',']

/-- Items with commas between them, and before them unless they come first. -/
def listed {α : Type} (text : α → List Char) : Bool → List α → List Char
  | _, [] => []
  | first, item :: rest => separator first ++ text item ++ listed text false rest

theorem renderItems_eq (items : List Json) : renderItems items = listed render true items := by
  induction items with
  | nil => rfl
  | cons item rest ih =>
    cases rest with
    | nil => simp [renderItems, listed, separator]
    | cons next rest =>
      rw [renderItems, ih]
      · simp [listed, separator]
      · simp

theorem renderFields_eq (fields : List (String × Json)) :
    renderFields fields = listed renderField true fields := by
  induction fields with
  | nil => rfl
  | cons field rest ih =>
    cases rest with
    | nil => simp [renderFields, listed, separator]
    | cons next rest =>
      rw [renderFields, ih]
      · simp [listed, separator]
      · simp

/-- After an item there is a comma or a closing bracket, and neither belongs to a number. -/
theorem endsNumber_listed {α : Type} (text : α → List Char) (hc : isNumberChar c = false)
    (items : List α) (rest : List Char) : EndsNumber (listed text false items ++ c :: rest) := by
  cases items with
  | nil => exact .cons hc rest
  | cons item items => exact .cons (by decide) _

/-! ### Where values start -/

theorem skipSpace_cons (hc : isSpace c = false) (rest : List Char) : skipSpace (c :: rest) = c :: rest :=
  List.dropWhile_cons_of_neg (by simp [hc])

theorem isSpace_of_isDigit (hc : c.isDigit = true) : isSpace c = false := by
  rw [Bool.eq_false_iff]
  intro hspace
  simp only [isSpace, Bool.or_eq_true, beq_iff_eq] at hspace
  obtain ((rfl | rfl) | rfl) | rfl := hspace <;> revert hc <;> decide

theorem exists_cons_renderInt (n : Int) :
    ∃ c cs, renderInt n = c :: cs ∧ (c = '-' ∨ c.isDigit = true) := by
  unfold renderInt
  split
  · exact ⟨_, _, rfl, .inl rfl⟩
  · obtain ⟨c, cs, hcons⟩ := List.exists_cons_of_ne_nil (Nat.toDigits_ne_nil (b := 10) (n := n.natAbs))
    exact ⟨c, cs, hcons, .inr (isDigit_of_mem (hcons ▸ List.mem_cons_self))⟩

/-- A readable value starts with no blank and no bracket that closes a list. Only `null` starts with
its letter. -/
theorem Readable.exists_cons_render (h : Readable depth j) :
    ∃ c cs, j.render = c :: cs ∧ isSpace c = false ∧ c ≠ ']' ∧ (c = 'n' → j = .null) := by
  cases h with
  | null => exact ⟨'n', _, rfl, by decide, by decide, fun _ => rfl⟩
  | bool b => cases b <;> exact ⟨_, _, rfl, by decide, by decide, fun h => absurd h (by decide)⟩
  | @int _ n hn =>
    obtain ⟨c, cs, hcons, rfl | hdigit⟩ := exists_cons_renderInt n
    · exact ⟨'-', cs, hcons, by decide, by decide, fun h => absurd h (by decide)⟩
    · refine ⟨c, cs, hcons, isSpace_of_isDigit hdigit, ?_, ?_⟩ <;>
        (rintro rfl; exact absurd hdigit (by decide))
  | string s => exact ⟨'"', _, rfl, by decide, by decide, fun h => absurd h (by decide)⟩
  | array => exact ⟨'[', _, rfl, by decide, by decide, fun h => absurd h (by decide)⟩
  | object => exact ⟨'\x7b', _, rfl, by decide, by decide, fun h => absurd h (by decide)⟩

/-- The next item is found behind its comma. -/
theorem itemAhead?_separator (h : Readable depth j) (first : Bool) (rest : List Char) :
    itemAhead? first (separator first ++ j.render ++ rest) = .ok (some (j.render ++ rest)) := by
  obtain ⟨c, cs, hcons, hspace, hclose, -⟩ := h.exists_cons_render
  rw [hcons]
  cases first with
  | true => simp [itemAhead?, separator, skipSpace_cons hspace]
  | false =>
    simp [itemAhead?, separator, skipSpace_cons (c := ',') (by decide), skipSpace_cons hspace, hclose]

/-- The next key is found behind its comma. -/
theorem keyAhead?_listed (key : String) (value : Json) (fields : List (String × Json)) (first : Bool)
    (rest : List Char) :
    keyAhead? first (listed renderField first ((key, value) :: fields) ++ rest) =
      .ok (some (key, ':' :: (value.render ++ (listed renderField false fields ++ rest)))) := by
  have hread := readString_escaped key (':' :: (value.render ++ (listed renderField false fields ++ rest)))
  cases first <;>
    simp [keyAhead?, listed, renderField, separator, quote, skipSpace_cons (c := ',') (by decide),
      skipSpace_cons (c := '"') (by decide), hread, Except.map]

/-! ### Values -/

/-- The text of a value is read back with enough fuel. -/
def ReadsBack (depth : Nat) (j : Json) : Prop :=
  ∀ (fuel : Nat) (rest : List Char), 2 * j.render.length ≤ fuel → EndsNumber rest →
    readValue fuel depth (j.render ++ rest) = .ok (j, rest)

theorem readValue_digit (hc : c.isDigit = true) (cs : List Char) :
    readValue (fuel + 1) depth (c :: cs) = readNumber false (c :: cs) := by
  rw [readValue, skipSpace_cons (isSpace_of_isDigit hc)]
  split <;> simp_all

/-- No readable value has an empty text, so there is fuel for a step. -/
theorem Readable.readsBack_of_step (h : Readable depth j)
    (hstep : ∀ fuel rest, 2 * j.render.length ≤ fuel + 1 → EndsNumber rest →
      readValue (fuel + 1) depth (j.render ++ rest) = .ok (j, rest)) : ReadsBack depth j := by
  intro fuel rest hfuel hend
  obtain ⟨c, cs, hcons, -⟩ := h.exists_cons_render
  have hne : fuel ≠ 0 := by
    rw [hcons, List.length_cons] at hfuel
    omega
  obtain ⟨less, rfl⟩ := Nat.exists_eq_add_one_of_ne_zero hne
  exact hstep less rest hfuel hend

theorem readsBack_int {n : Int} (hn : Is64Bit n) : ReadsBack depth (.int n) := by
  refine (Readable.int hn).readsBack_of_step fun fuel rest _ hend => ?_
  have hvalue := wholeNumber_natAbs hn
  unfold render renderInt
  split
  · next hneg =>
    rw [decide_eq_true hneg] at hvalue
    rw [List.cons_append, readValue, skipSpace_cons (by decide), ← hvalue]
    exact readNumber_digits true (natAbs_lt hn) hend
  · next hpos =>
    rw [decide_eq_false hpos] at hvalue
    have hread := readNumber_digits false (natAbs_lt hn) hend
    obtain ⟨d, ds, hdigits⟩ := List.exists_cons_of_ne_nil (Nat.toDigits_ne_nil (b := 10) (n := n.natAbs))
    have hdigit : d.isDigit = true := isDigit_of_mem (hdigits ▸ List.mem_cons_self)
    rw [hdigits, List.cons_append] at hread ⊢
    rw [readValue_digit hdigit, hread, hvalue]

theorem readItems_listed (fuel : Nat) (first : Bool) (rest : List Char) {items : List Json}
    (hitems : ∀ item ∈ items, Readable depth item ∧ ReadsBack depth item)
    (hfuel : 2 * (listed render first items).length < fuel) :
    readItems fuel depth first (listed render first items ++ ']' :: rest) = .ok (items, rest) := by
  induction items generalizing fuel first with
  | nil =>
    obtain ⟨fuel, rfl⟩ := Nat.exists_eq_add_one.mpr (Nat.zero_lt_of_lt hfuel)
    rfl
  | cons item items ih =>
    obtain ⟨fuel, rfl⟩ := Nat.exists_eq_add_one.mpr (Nat.zero_lt_of_lt hfuel)
    obtain ⟨⟨hreadable, hback⟩, hitems⟩ := List.forall_mem_cons.mp hitems
    obtain ⟨c, cs, hcons, -⟩ := hreadable.exists_cons_render
    have hlength : 1 ≤ item.render.length := by simp [hcons]
    simp only [listed, List.length_append] at hfuel
    have hitem := hback fuel _ (by omega) (endsNumber_listed render (c := ']') (by decide) items rest)
    have hothers := ih fuel false hitems (by omega)
    rw [listed, List.append_assoc, readItems, itemAhead?_separator hreadable]
    simp [hitem, hothers, bind, Except.bind, pure, Except.pure]

theorem insertField_new {fields : List (String × Json)} {key : String} {value : Json}
    (h : key ∉ fields.map (·.1)) : insertField key value fields = fields ++ [(key, value)] := by
  induction fields with
  | nil => rfl
  | cons field fields ih =>
    obtain ⟨other, v⟩ := field
    simp only [List.map_cons, List.mem_cons, not_or] at h
    rw [insertField, if_neg (Ne.symm h.1), ih h.2, List.cons_append]

theorem readFields_listed (fuel : Nat) (first : Bool) (rest : List Char)
    (before : List (String × Json)) {fields : List (String × Json)}
    (hkeys : ((before ++ fields).map (·.1)).Nodup)
    (hfields : ∀ field ∈ fields, Readable depth field.2 ∧ ReadsBack depth field.2)
    (hfuel : 2 * (listed renderField first fields).length < fuel) :
    readFields fuel depth first before (listed renderField first fields ++ '\x7d' :: rest) =
      .ok (before ++ fields, rest) := by
  induction fields generalizing fuel first before with
  | nil =>
    obtain ⟨fuel, rfl⟩ := Nat.exists_eq_add_one.mpr (Nat.zero_lt_of_lt hfuel)
    rw [List.append_nil]
    rfl
  | cons field fields ih =>
    obtain ⟨fuel, rfl⟩ := Nat.exists_eq_add_one.mpr (Nat.zero_lt_of_lt hfuel)
    obtain ⟨key, value⟩ := field
    obtain ⟨⟨hreadable, hback⟩, hfields⟩ := List.forall_mem_cons.mp hfields
    simp only [listed, renderField, List.length_append, List.length_cons] at hfuel
    change ReadsBack depth value at hback
    have hvalue := hback fuel _ (by omega)
      (endsNumber_listed renderField (c := '\x7d') (by decide) fields rest)
    have hnew : key ∉ before.map (·.1) := fun hmem => by
      rw [List.map_append, List.nodup_append] at hkeys
      exact hkeys.2.2 key hmem key List.mem_cons_self rfl
    have hothers := ih fuel false (before ++ [(key, value)]) (by simpa using hkeys) hfields (by omega)
    rw [readFields, keyAhead?_listed]
    simp [readColon, skipSpace_cons (c := ':') (by decide), hvalue, insertField_new hnew, hothers, bind,
      Except.bind]

/-- The text of a readable value is read back as this value. By induction on the value: what is nested
is read back with less fuel, and its text is shorter. -/
theorem Readable.readsBack (h : Readable depth j) : ReadsBack depth j := by
  induction h with
  | null => exact Readable.null.readsBack_of_step fun _ _ _ _ => rfl
  | bool b => exact (Readable.bool b).readsBack_of_step fun _ _ _ _ => by cases b <;> rfl
  | int hn => exact readsBack_int hn
  | string s =>
    refine (Readable.string s).readsBack_of_step fun fuel rest _ _ => ?_
    simp [render, quote, readValue, skipSpace_cons (c := '"') (by decide), readString_escaped, bind,
      Except.bind, pure, Except.pure]
  | @array depth items hitems ih =>
    refine (Readable.array hitems).readsBack_of_step fun fuel rest hfuel _ => ?_
    rw [render, renderItems_eq] at hfuel ⊢
    simp only [List.length_append, List.length_cons] at hfuel
    have hread := readItems_listed fuel true rest
      (fun item hitem => ⟨hitems item hitem, ih item hitem⟩) (by omega)
    simp [readValue, skipSpace_cons (c := '[') (by decide), hread, bind, Except.bind, pure, Except.pure]
  | @object depth fields hkeys hfields ih =>
    refine (Readable.object hkeys hfields).readsBack_of_step fun fuel rest hfuel _ => ?_
    rw [render, renderFields_eq] at hfuel ⊢
    simp only [List.length_append, List.length_cons] at hfuel
    have hread := readFields_listed fuel true rest [] hkeys
      (fun field hfield => ⟨hfields field hfield, ih field hfield⟩) (by omega)
    simp [readValue, skipSpace_cons (c := '\x7b') (by decide), hread, bind, Except.bind, pure, Except.pure]

end TaskDialogue.Json
