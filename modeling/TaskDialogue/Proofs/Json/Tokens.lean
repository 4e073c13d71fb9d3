import TaskDialogue.Json.Scan
import TaskDialogue.Json.Writer

/-!
# Tokens of JSON text are read back

Whole numbers of 64 bits and strings are read from their written form as what they were. For numbers
this needs that no character of a number follows, since a reader takes as much as it can. Decimals are
left out: they are read to within a unit in the last place only.
-/
namespace TaskDialogue.Json

/-! ### Whole numbers -/

/-- What the text of a number is made of. -/
def isNumberChar (c : Char) : Bool := c.isDigit || "+-.eE".toList.contains c

/-- No character of a number comes first. -/
def EndsNumber (rest : List Char) : Prop := ∀ c, rest.head? = some c → isNumberChar c = false

/-- Whole numbers that fit 64 bits, with a sign or without. -/
def Is64Bit (n : Int) : Prop := Int64.minValue.toInt ≤ n ∧ n < significandBound

instance (n : Int) : Decidable (Is64Bit n) := inferInstanceAs (Decidable (_ ∧ _))

theorem EndsNumber.nil : EndsNumber [] := nofun

theorem EndsNumber.cons {c : Char} (h : isNumberChar c = false) (rest : List Char) :
    EndsNumber (c :: rest) := by
  rintro _ ⟨⟩
  exact h

theorem EndsNumber.head_isDigit {rest : List Char} (h : EndsNumber rest) :
    rest.head?.any Char.isDigit = false := by
  cases rest with
  | nil => rfl
  | cons c rest =>
    have hc := h c rfl
    simp only [isNumberChar, Bool.or_eq_false_iff] at hc
    exact hc.1

variable {rest : List Char}

theorem le_ofDigitChars (digits : List Char) (n : Nat) : n ≤ Nat.ofDigitChars 10 digits n := by
  rw [Nat.ofDigitChars_eq_ofDigitChars_zero]
  exact Nat.le_add_right_of_le (Nat.le_mul_of_pos_left n (Nat.pow_pos (by decide)))

theorem ofDigitChars_cons (c : Char) (digits : List Char) (n : Nat) :
    Nat.ofDigitChars 10 (c :: digits) n = Nat.ofDigitChars 10 digits (n * 10 + digitValue c) := by
  rw [Nat.ofDigitChars_cons, Nat.mul_comm]
  rfl

/-- All digits are taken when the number stays below the bound. -/
theorem takeDigits_append {digits : List Char} (count significand : Nat)
    (hdigits : ∀ c ∈ digits, c.isDigit = true) (hend : rest.head?.any Char.isDigit = false)
    (hlt : Nat.ofDigitChars 10 digits significand < significandBound) :
    takeDigits count significand (digits ++ rest) =
      (count + digits.length, Nat.ofDigitChars 10 digits significand, rest) := by
  induction digits generalizing count significand with
  | nil =>
    cases rest with
    | nil => rfl
    | cons c rest =>
      have hc : c.isDigit = false := hend
      simp [takeDigits, hc]
  | cons c digits ih =>
    obtain ⟨hc, hdigits⟩ := List.forall_mem_cons.mp hdigits
    rw [ofDigitChars_cons] at hlt
    have hstep : significand * 10 + digitValue c < significandBound :=
      Nat.lt_of_le_of_lt (le_ofDigitChars digits _) hlt
    rw [List.cons_append, takeDigits, if_pos (by simp [hc, hstep]), ih _ _ hdigits hlt, List.length_cons,
      ofDigitChars_cons, Nat.add_assoc, Nat.add_comm 1]

theorem isDigit_of_mem {n : Nat} {c : Char} (h : c ∈ Nat.toDigits 10 n) : c.isDigit = true :=
  Nat.isDigit_of_mem_toDigits (by decide) (by decide) h

/-- Only zero starts with a zero. -/
theorem head?_toDigits_ne {n : Nat} (h : 0 < n) : (Nat.toDigits 10 n).head? ≠ some '0' := by
  induction n using Nat.strongRecOn with
  | _ n ih =>
    rw [Nat.toDigits_eq_if (by decide)]
    split
    · next hlt =>
      have hall : ∀ d < 10, 0 < d → d.digitChar ≠ '0' := by decide
      simpa using hall n hlt h
    · next hge =>
      have hdiv : 0 < n / 10 := by omega
      have hrest := ih (n / 10) (by omega) hdiv
      obtain ⟨c, cs, hcons⟩ := List.exists_cons_of_ne_nil (Nat.toDigits_ne_nil (b := 10) (n := n / 10))
      rw [hcons] at hrest ⊢
      exact hrest

/-- What ends a number neither starts a fraction nor an exponent. -/
theorem EndsNumber.cons_ne {c : Char} (h : EndsNumber (c :: rest)) : c ≠ '.' ∧ c ≠ 'e' ∧ c ≠ 'E' := by
  have hc := h c rfl
  refine ⟨?_, ?_, ?_⟩ <;> (rintro rfl; exact absurd hc (by decide))

theorem readAfterInteger_of_ends (negative : Bool) (n : Nat) (h : EndsNumber rest) :
    readAfterInteger negative n rest = .ok (wholeNumber negative n, rest) := by
  cases rest with
  | nil => rfl
  | cons c rest => simp [readAfterInteger, h.cons_ne]

theorem takeWhile_isDigit (h : EndsNumber rest) : rest.takeWhile Char.isDigit = [] := by
  have hhead := h.head_isDigit
  cases rest with
  | nil => rfl
  | cons c rest => exact List.takeWhile_cons_of_neg (by simpa using hhead)

theorem dropWhile_toDigits (n : Nat) (h : EndsNumber rest) :
    (Nat.toDigits 10 n ++ rest).dropWhile Char.isDigit = rest := by
  have hhead := h.head_isDigit
  rw [List.dropWhile_append_of_pos fun c hc => isDigit_of_mem hc]
  cases rest with
  | nil => rfl
  | cons c rest => exact List.dropWhile_cons_of_neg (by simpa using hhead)

/-- The written form of a number starts with a digit, which is not zero unless the number is. -/
theorem exists_toDigits {n : Nat} (h : 0 < n) :
    ∃ c cs, Nat.toDigits 10 n = c :: cs ∧ c.isDigit = true ∧ c ≠ '0' := by
  have hfirst := head?_toDigits_ne h
  obtain ⟨c, cs, hcons⟩ := List.exists_cons_of_ne_nil (Nat.toDigits_ne_nil (b := 10) (n := n))
  refine ⟨c, cs, hcons, isDigit_of_mem (hcons ▸ List.mem_cons_self), ?_⟩
  rw [hcons] at hfirst
  simpa using hfirst

theorem readNumber_digits (negative : Bool) {n : Nat} (hn : n < significandBound) (h : EndsNumber rest) :
    readNumber negative (Nat.toDigits 10 n ++ rest) = .ok (wholeNumber negative n, rest) := by
  obtain rfl | hpos := Nat.eq_zero_or_pos n
  · simp [readNumber, h.head_isDigit, readAfterInteger_of_ends negative 0 h]
  · have hvalue : Nat.ofDigitChars 10 (Nat.toDigits 10 n) 0 = n :=
      Nat.ofDigitChars_toDigits (by decide) (by decide)
    have htake := takeDigits_append 0 0 (fun c hc => isDigit_of_mem hc)
      h.head_isDigit (by rwa [hvalue])
    obtain ⟨c, cs, hcons, hdigit, hne⟩ := exists_toDigits hpos
    rw [hvalue] at htake
    rw [hcons, List.cons_append] at htake ⊢
    simp [readNumber, hdigit, htake, takeWhile_isDigit h, readAfterInteger_of_ends negative n h]

theorem wholeNumber_natAbs {n : Int} (hn : Is64Bit n) :
    wholeNumber (decide (n < 0)) n.natAbs = .int n := by
  obtain ⟨hge, -⟩ := hn
  by_cases hneg : n < 0
  · have hfits : Number.fitsInt64 n = true := by
      have hmin : Int64.minValue.toInt = -9223372036854775808 := by decide
      rw [hmin] at hge
      exact Number.fitsInt64_iff.mpr ⟨hge, by omega⟩
    have habs : -(n.natAbs : Int) = n := by omega
    have hne : n.natAbs ≠ 0 := by omega
    rw [wholeNumber, habs, hfits, if_neg (by simpa using hneg), if_neg (by simp [hne])]
  · have habs : (n.natAbs : Int) = n := by omega
    rw [wholeNumber, habs, if_pos (by simpa using hneg)]

theorem natAbs_lt {n : Int} (hn : Is64Bit n) : n.natAbs < significandBound := by
  have hmin : Int64.minValue.toInt = -9223372036854775808 := by decide
  have hbound : significandBound = 18446744073709551616 := by decide
  obtain ⟨hge, hlt⟩ := hn
  rw [hmin] at hge
  rw [hbound] at hlt ⊢
  omega

/-- A number that is passed over is left behind whole. -/
theorem skipNumber_digits (n : Nat) (h : EndsNumber rest) :
    skipNumber (Nat.toDigits 10 n ++ rest) = .ok rest := by
  have hend : ∀ c cs, rest = c :: cs → c ≠ '.' ∧ c ≠ 'e' ∧ c ≠ 'E' := by
    rintro c cs rfl
    exact h.cons_ne
  obtain rfl | hpos := Nat.eq_zero_or_pos n
  · cases rest with
    | nil => rfl
    | cons d rest =>
      have hd : d.isDigit = false := h.head_isDigit
      simp [skipNumber, hd, hend d rest rfl, bind, Except.bind]
  · have hdrop := dropWhile_toDigits n h
    obtain ⟨c, cs, hcons, hdigit, hne⟩ := exists_toDigits hpos
    rw [hcons, List.cons_append] at hdrop ⊢
    rw [List.dropWhile_cons_of_pos hdigit] at hdrop
    generalize cs ++ rest = after at hdrop ⊢
    cases rest with
    | nil => simp [skipNumber, hne, hdigit, hdrop, bind, Except.bind]
    | cons d rest => simp [skipNumber, hne, hdigit, hdrop, hend d rest rfl, bind, Except.bind]

/-! ### Strings -/

theorem readChars_quote (rest : List Char) : readChars ('"' :: rest) = .ok ([], rest) := by
  rw [readChars]
  simp

theorem readChars_backslash {c : Char} {cs rest : List Char} (h : readEscape cs = .ok (c, rest)) :
    readChars ('\\' :: cs) = (readChars rest).map fun r => (c :: r.1, r.2) := by
  rw [readChars]
  simp only [Char.reduceEq, if_false, if_true]
  split
  · next e he => simp [h] at he
  · next c' rest' hok =>
    obtain ⟨rfl, rfl⟩ := Prod.mk.inj (Except.ok.inj (h.symm.trans hok))
    rfl

theorem readChars_plain {c : Char} (hquote : c ≠ '"') (hbackslash : c ≠ '\\') (hcontrol : ¬c.toNat < 0x20)
    (rest : List Char) : readChars (c :: rest) = (readChars rest).map fun r => (c :: r.1, r.2) := by
  rw [readChars, if_neg hquote, if_neg hbackslash, if_neg hcontrol]

/-- A control character is read back from its four digits. -/
theorem readEscape_control {c : Char} (hc : c.toNat < 0x20) (rest : List Char) :
    readEscape ('u' :: '0' :: '0' :: hexDigit (c.toNat / 16) :: hexDigit (c.toNat % 16) :: rest) =
      .ok (c, rest) := by
  have hall : ∀ n < 0x20, Text.readBase? 16 ['0', '0', hexDigit (n / 16), hexDigit (n % 16)] = some n := by
    decide
  have hhex : readHex ('0' :: '0' :: hexDigit (c.toNat / 16) :: hexDigit (c.toNat % 16) :: rest) =
      .ok (c.toNat, rest) := by
    rw [readHex, hall _ hc]
  simp only [readEscape, hhex]
  rw [if_neg (by omega), if_pos (by omega), Char.ofNat_toNat]

theorem readChars_escapeChar (c : Char) (rest : List Char) :
    readChars (escapeChar c ++ rest) = (readChars rest).map fun r => (c :: r.1, r.2) := by
  unfold escapeChar
  split
  case h_8 c hquote hbackslash _ _ _ _ _ =>
    split
    · next hcontrol => exact readChars_backslash (readEscape_control hcontrol rest)
    · next hcontrol => exact readChars_plain hquote hbackslash hcontrol rest
  all_goals exact readChars_backslash rfl

theorem readChars_escaped (text rest : List Char) :
    readChars (text.flatMap escapeChar ++ '"' :: rest) = .ok (text, rest) := by
  induction text with
  | nil => exact readChars_quote rest
  | cons c text ih =>
    rw [List.flatMap_cons, List.append_assoc, readChars_escapeChar, ih]
    rfl

/-- A string is read back. -/
theorem readString_escaped (s : String) (rest : List Char) :
    readString (s.toList.flatMap escapeChar ++ '"' :: rest) = .ok (s, rest) := by
  rw [readString, readChars_escaped]
  simp [Except.map]

end TaskDialogue.Json
