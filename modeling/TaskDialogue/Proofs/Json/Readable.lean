import TaskDialogue.Proofs.Json.NumberTexts

/-!
# Values that reading gives

An object that was read has each key once, and no value is nested deeper than there was room for. When
the numbers of the text are whole, there are no other numbers in the value. Such values are readable:
nothing else can be read from a text with whole numbers only.
-/
namespace TaskDialogue.Json

/-- What can be read with room for some containers: each key once and whole numbers only. -/
inductive Readable : Nat → Json → Prop where
  | null {depth : Nat} : Readable depth .null
  | bool {depth : Nat} (b : Bool) : Readable depth (.bool b)
  | int {depth : Nat} {n : Int} (hn : Is64Bit n) : Readable depth (.int n)
  | string {depth : Nat} (s : String) : Readable depth (.string s)
  | array {depth : Nat} {items : List Json} (hitems : ∀ item ∈ items, Readable depth item) :
    Readable (depth + 1) (.array items)
  | object {depth : Nat} {fields : List (String × Json)} (hkeys : (fields.map (·.1)).Nodup)
    (hfields : ∀ field ∈ fields, Readable depth field.2) : Readable (depth + 1) (.object fields)

/-! ### Fields -/

/-- The fields of an object: each key once, and values that satisfy `V`. -/
structure FieldsHold (V : Json → Prop) (fields : List (String × Json)) : Prop where
  keys : (fields.map (·.1)).Nodup
  values : ∀ field ∈ fields, V field.2

variable {N : List Char → Prop} {V : Nat → Json → Prop} {fuel depth : Nat} {cs rest : List Char}
  {first : Bool} {key : String} {value : Json} {fields before : List (String × Json)}

theorem mem_keys_insertField {k : String} :
    k ∈ (insertField key value fields).map (·.1) ↔ k = key ∨ k ∈ fields.map (·.1) := by
  induction fields with
  | nil => simp [insertField]
  | cons field rest ih =>
    obtain ⟨other, v⟩ := field
    rw [insertField]
    split
    · next hsame => simp [hsame]
    · rw [List.map_cons, List.mem_cons, ih, List.map_cons, List.mem_cons]
      exact or_left_comm

theorem mem_insertField {field : String × Json} (h : field ∈ insertField key value fields) :
    field = (key, value) ∨ field ∈ fields := by
  induction fields with
  | nil => simpa [insertField] using h
  | cons other rest ih =>
    obtain ⟨k, v⟩ := other
    rw [insertField] at h
    split at h
    · next hsame =>
      subst hsame
      exact (List.mem_cons.mp h).imp_right (List.mem_cons_of_mem _)
    · obtain rfl | h := List.mem_cons.mp h
      · exact .inr List.mem_cons_self
      · exact (ih h).imp_right (List.mem_cons_of_mem _)

theorem nodup_insertField (h : (fields.map (·.1)).Nodup) :
    ((insertField key value fields).map (·.1)).Nodup := by
  induction fields with
  | nil => simp [insertField]
  | cons field rest ih =>
    obtain ⟨other, v⟩ := field
    obtain ⟨hother, hrest⟩ := List.nodup_cons.mp h
    rw [insertField]
    split
    · exact h
    · next hne =>
      refine List.nodup_cons.mpr ⟨fun hmem => ?_, ih hrest⟩
      obtain hsame | hmem := mem_keys_insertField.mp hmem
      · exact hne hsame
      · exact hother hmem

theorem FieldsHold.nil (V : Json → Prop) : FieldsHold V [] := ⟨List.nodup_nil, by simp⟩

theorem FieldsHold.insertField {V : Json → Prop} (h : FieldsHold V fields) (hvalue : V value) :
    FieldsHold V (insertField key value fields) := by
  refine ⟨nodup_insertField h.keys, fun field hfield => ?_⟩
  obtain rfl | hold := mem_insertField hfield
  · exact hvalue
  · exact h.values field hold

/-! ### Values -/

/-- From a text whose numbers satisfy `N` the reader takes a value that satisfies `P`, and leaves such a
text. -/
def Takes {α : Type} (N : List Char → Prop) (P : α → Prop)
    (reader : List Char → Except Fault (α × List Char)) : Prop :=
  ∀ ⦃cs rest : List Char⦄ ⦃value : α⦄,
    reader cs = .ok (value, rest) → Numbers N cs → P value ∧ Numbers N rest

/-- Values that are read with this fuel satisfy `V`. -/
def ReadsWith (N : List Char → Prop) (V : Nat → Json → Prop) (fuel : Nat) : Prop :=
  ∀ depth, Takes N (V depth) (readValue fuel depth)

/-- What holds of all numbers of a text holds of all numbers of a text with the same ones. -/
theorem Numbers.of_eq (h : Numbers N cs) (hsame : numberTexts cs = numberTexts rest) : Numbers N rest := by
  rwa [Numbers, ← hsame]

theorem Numbers.tail {c : Char} (h : Numbers N (c :: cs)) (hc : IsMark c) : Numbers N cs :=
  h.of_eq (numberTexts_mark hc cs)

theorem Numbers.word {letters : List Char} (h : Numbers N cs)
    (hletters : letters.all (IsMark ·) = true) (hword : readWord letters cs = .ok rest) : Numbers N rest :=
  h.of_eq (numberTexts_readWord hletters hword)

theorem Numbers.word_value {letters : List Char} {word : Json} (h : Numbers N cs)
    (hletters : letters.all (IsMark ·) = true)
    (hword : (readWord letters cs >>= fun after => pure (word, after)) = .ok (value, rest)) :
    value = word ∧ Numbers N rest := by
  obtain ⟨after, hafter, hword⟩ := bind_eq_ok.mp hword
  obtain ⟨rfl, rfl⟩ := Prod.mk.inj (Except.ok.inj hword)
  exact ⟨rfl, h.word hletters hafter⟩

theorem holds_readItems (hvalue : ∀ less < fuel, ReadsWith N V less) {items : List Json}
    (h : readItems fuel depth first cs = .ok (items, rest)) (hcs : Numbers N cs) :
    (∀ item ∈ items, V depth item) ∧ Numbers N rest := by
  induction fuel generalizing first cs items rest with
  | zero => simp [readItems] at h
  | succ fuel ih =>
    rw [readItems] at h
    obtain ⟨ahead, hahead, h⟩ := bind_eq_ok.mp h
    cases ahead with
    | none =>
      obtain ⟨after, hafter, h⟩ := bind_eq_ok.mp h
      obtain ⟨rfl, rfl⟩ := Prod.mk.inj (Except.ok.inj h)
      exact ⟨by simp, hcs.of_eq (numberTexts_closeList hafter)⟩
    | some after =>
      obtain ⟨⟨item, left⟩, hitem, h⟩ := bind_eq_ok.mp h
      obtain ⟨⟨others, last⟩, hothers, h⟩ := bind_eq_ok.mp h
      obtain ⟨rfl, rfl⟩ := Prod.mk.inj (Except.ok.inj h)
      have hstart := hcs.of_eq (numberTexts_itemAhead hahead)
      obtain ⟨hv, hleft⟩ := hvalue fuel (Nat.lt_succ_self _) depth hitem hstart
      obtain ⟨hvs, hlast⟩ := ih (fun less hless => hvalue less (Nat.lt_succ_of_lt hless)) hothers hleft
      exact ⟨List.forall_mem_cons.mpr ⟨hv, hvs⟩, hlast⟩

theorem holds_readFields (hvalue : ∀ less < fuel, ReadsWith N V less)
    (h : readFields fuel depth first before cs = .ok (fields, rest)) (hcs : Numbers N cs)
    (hbefore : FieldsHold (V depth) before) : FieldsHold (V depth) fields ∧ Numbers N rest := by
  induction fuel generalizing first before cs with
  | zero => simp [readFields] at h
  | succ fuel ih =>
    rw [readFields] at h
    obtain ⟨ahead, hahead, h⟩ := bind_eq_ok.mp h
    cases ahead with
    | none =>
      obtain ⟨after, hafter, h⟩ := bind_eq_ok.mp h
      obtain ⟨rfl, rfl⟩ := Prod.mk.inj (Except.ok.inj h)
      exact ⟨hbefore, hcs.of_eq (numberTexts_closeObject hafter)⟩
    | some ahead =>
      obtain ⟨key, after⟩ := ahead
      obtain ⟨colon, hcolon, h⟩ := bind_eq_ok.mp h
      obtain ⟨⟨value, left⟩, hread, h⟩ := bind_eq_ok.mp h
      have hstart := (hcs.of_eq (numberTexts_keyAhead hahead)).of_eq (numberTexts_readColon hcolon)
      obtain ⟨hv, hleft⟩ := hvalue fuel (Nat.lt_succ_self _) depth hread hstart
      exact ih (fun less hless => hvalue less (Nat.lt_succ_of_lt hless)) h hleft (hbefore.insertField hv)

theorem readable_negative {value : Json} (h : readNumber true cs = .ok (value, rest))
    (hcs : Numbers IsWhole ('-' :: cs)) : Readable depth value ∧ Numbers IsWhole rest := by
  obtain ⟨n, after, hn, hneg, rfl, hend, hafter⟩ := hcs.exists_negative
  rw [readNumber_digits true (natAbs_lt hn) hend] at h
  obtain ⟨rfl, rfl⟩ := Prod.mk.inj (Except.ok.inj h)
  have hvalue := wholeNumber_natAbs hn
  rw [decide_eq_true hneg] at hvalue
  exact ⟨hvalue ▸ .int hn, hafter⟩

theorem readable_digits {c : Char} {value : Json} (hc : c.isDigit = true)
    (h : readNumber false (c :: cs) = .ok (value, rest)) (hcs : Numbers IsWhole (c :: cs)) :
    Readable depth value ∧ Numbers IsWhole rest := by
  obtain ⟨n, after, hn, hpos, htext, hend, hafter⟩ := hcs.exists_digits hc
  rw [htext, readNumber_digits false (natAbs_lt hn) hend] at h
  obtain ⟨rfl, rfl⟩ := Prod.mk.inj (Except.ok.inj h)
  have hvalue := wholeNumber_natAbs hn
  rw [decide_eq_false hpos] at hvalue
  exact ⟨hvalue ▸ .int hn, hafter⟩

/-- From a text with whole numbers only, what is read is readable. -/
theorem readable_readValue (fuel : Nat) : ReadsWith IsWhole Readable fuel := by
  induction fuel using Nat.strongRecOn with
  | _ fuel ih =>
  intro depth cs rest value h hcs
  cases fuel with
  | zero => simp [readValue] at h
  | succ fuel =>
    have hless : ∀ less < fuel, ReadsWith IsWhole Readable less := fun less hless => ih less (by omega)
    rw [readValue] at h
    have hstart := hcs.of_eq (numberTexts_skipSpace cs).symm
    generalize skipSpace cs = start at h hstart
    split at h
    · simp at h
    · obtain ⟨rfl, hrest⟩ := (hstart.tail (by decide)).word_value (by decide) h
      exact ⟨.null, hrest⟩
    · obtain ⟨rfl, hrest⟩ := (hstart.tail (by decide)).word_value (by decide) h
      exact ⟨.bool true, hrest⟩
    · obtain ⟨rfl, hrest⟩ := (hstart.tail (by decide)).word_value (by decide) h
      exact ⟨.bool false, hrest⟩
    · exact readable_negative h hstart
    · obtain ⟨⟨s, after⟩, hstring, h⟩ := bind_eq_ok.mp h
      obtain ⟨rfl, rfl⟩ := Prod.mk.inj (Except.ok.inj h)
      exact ⟨.string s, hstart.of_eq (numberTexts_readString hstring)⟩
    · split at h
      · simp at h
      · obtain ⟨⟨items, after⟩, hread, h⟩ := bind_eq_ok.mp h
        obtain ⟨rfl, rfl⟩ := Prod.mk.inj (Except.ok.inj h)
        obtain ⟨hitems, hafter⟩ := holds_readItems hless hread (hstart.tail (by decide))
        exact ⟨.array hitems, hafter⟩
    · split at h
      · simp at h
      · obtain ⟨⟨fields, after⟩, hread, h⟩ := bind_eq_ok.mp h
        obtain ⟨rfl, rfl⟩ := Prod.mk.inj (Except.ok.inj h)
        obtain ⟨hfields, hafter⟩ := holds_readFields hless hread (hstart.tail (by decide)) (.nil _)
        exact ⟨.object hfields.keys hfields.values, hafter⟩
    · split at h
      · next hdigit => exact readable_digits hdigit h hstart
      · simp at h

/-! ### Values that are passed over -/

/-- Values that are passed over with this fuel leave the numbers of the rest. -/
def SkipsWith (N : List Char → Prop) (fuel : Nat) : Prop :=
  ∀ {cs rest : List Char}, skipValue fuel cs = .ok rest → Numbers N cs → Numbers N rest

/-- The numbers from where an item or a key starts, after the comma unless it is the first. -/
theorem Numbers.item {c : Char} {after : List Char} (h : Numbers N cs) (hskip : skipSpace cs = c :: after)
    (hcomma : ¬(!first && decide (c ≠ ',')) = true) :
    Numbers N (if first = true then c :: after else after) := by
  split
  · exact hskip ▸ h.of_eq (numberTexts_skipSpace cs).symm
  · obtain rfl : c = ',' := by simp_all
    exact h.of_eq (numberTexts_skipped hskip (by decide))

theorem numbers_skipItems (hvalue : ∀ less < fuel, SkipsWith N less)
    (h : skipItems fuel first cs = .ok rest) (hcs : Numbers N cs) : Numbers N rest := by
  induction fuel generalizing first cs with
  | zero => simp [skipItems] at h
  | succ fuel ih =>
    rw [skipItems] at h
    split at h
    · simp at h
    · next after hskip =>
      obtain rfl := Except.ok.inj h
      exact hcs.of_eq (numberTexts_skipped hskip (by decide))
    · next c after _ hskip =>
      split at h
      · simp at h
      · next hcomma =>
        obtain ⟨left, hitem, h⟩ := bind_eq_ok.mp h
        have hleft := hvalue fuel (Nat.lt_succ_self _) hitem (hcs.item hskip hcomma)
        exact ih (fun less hless => hvalue less (Nat.lt_succ_of_lt hless)) h hleft

theorem numbers_skipFields (hvalue : ∀ less < fuel, SkipsWith N less)
    (h : skipFields fuel first cs = .ok rest) (hcs : Numbers N cs) : Numbers N rest := by
  induction fuel generalizing first cs with
  | zero => simp [skipFields] at h
  | succ fuel ih =>
    rw [skipFields] at h
    split at h
    · simp at h
    · next after hskip =>
      obtain rfl := Except.ok.inj h
      exact hcs.of_eq (numberTexts_skipped hskip (by decide))
    · next c after _ hskip =>
      split at h
      · simp at h
      · next hcomma =>
        have hkey := (hcs.item hskip hcomma).of_eq (numberTexts_skipSpace _).symm
        split at h
        · simp at h
        · next text hquote =>
          rw [hquote] at hkey
          obtain ⟨named, hnamed, h⟩ := bind_eq_ok.mp h
          obtain ⟨colon, hcolon, h⟩ := bind_eq_ok.mp h
          obtain ⟨left, hvalueRead, h⟩ := bind_eq_ok.mp h
          have hstart := (hkey.of_eq (numberTexts_skipString hnamed)).of_eq (numberTexts_readColon hcolon)
          have hleft := hvalue fuel (Nat.lt_succ_self _) hvalueRead hstart
          exact ih (fun less hless => hvalue less (Nat.lt_succ_of_lt hless)) h hleft
        · simp at h

theorem numbers_skipValue (fuel : Nat) : SkipsWith IsWhole fuel := by
  induction fuel using Nat.strongRecOn with
  | _ fuel ih =>
  intro cs rest h hcs
  cases fuel with
  | zero => simp [skipValue] at h
  | succ fuel =>
    have hless : ∀ less < fuel, SkipsWith IsWhole less := fun less hless => ih less (by omega)
    rw [skipValue] at h
    have hstart := hcs.of_eq (numberTexts_skipSpace cs).symm
    generalize skipSpace cs = start at h hstart
    split at h
    · simp at h
    · exact (hstart.tail (by decide)).word (by decide) h
    · exact (hstart.tail (by decide)).word (by decide) h
    · exact (hstart.tail (by decide)).word (by decide) h
    · obtain ⟨n, after, -, -, rfl, hend, hafter⟩ := hstart.exists_negative
      rw [skipNumber_digits _ hend] at h
      exact Except.ok.inj h ▸ hafter
    · exact hstart.of_eq (numberTexts_skipString h)
    · exact numbers_skipItems hless h (hstart.tail (by decide))
    · exact numbers_skipFields hless h (hstart.tail (by decide))
    · split at h
      · next hdigit =>
        obtain ⟨n, after, -, -, htext, hend, hafter⟩ := hstart.exists_digits hdigit
        rw [htext, skipNumber_digits _ hend] at h
        exact Except.ok.inj h ▸ hafter
      · simp at h

end TaskDialogue.Json
