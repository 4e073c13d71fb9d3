import TaskDialogue.Json.Reader
import TaskDialogue.Proofs.Success
import TaskDialogue.Proofs.Json.Tokens

/-!
# The numbers of a text

Outside of strings a number is written as a run of digits, signs, points and exponent letters that
starts with a digit or a minus sign. Readers take numbers off a text in this order: each token but a
number leaves the numbers of the text to its rest. So when all of them are whole numbers of 64 bits,
such numbers is what is read.
-/
namespace TaskDialogue.Json

/-- What is left of a text after the string whose opening quote was passed. -/
def afterString : List Char → List Char
  | [] => []
  | '"' :: rest => rest
  | '\\' :: _ :: rest => afterString rest
  | _ :: rest => afterString rest

theorem length_afterString_le (cs : List Char) : (afterString cs).length ≤ cs.length := by
  induction cs using afterString.induct with
  | case1 => simp [afterString]
  | case2 rest => simp [afterString]
  | case3 c rest ih => simp only [afterString, List.length_cons]; omega
  | case4 c rest hquote hbackslash ih =>
    rw [afterString, List.length_cons]
    · omega
    · exact hquote
    · exact hbackslash

/-- Whether a number may start here. -/
def startsNumber (c : Char) : Bool := c.isDigit || c == '-'

/-- The texts of the numbers, in order. -/
def numberTexts : List Char → List (List Char)
  | [] => []
  | c :: rest =>
    if c = '"' then numberTexts (afterString rest)
    else if startsNumber c then
      (c :: rest.takeWhile isNumberChar) :: numberTexts (rest.dropWhile isNumberChar)
    else numberTexts rest
termination_by cs => cs.length
decreasing_by
  · exact Nat.lt_succ_of_le (length_afterString_le rest)
  · exact Nat.lt_succ_of_le (List.dropWhile_suffix _).length_le
  · exact Nat.lt_succ_self _

variable {cs rest : List Char} {c : Char}

theorem numberTexts_quote (rest : List Char) : numberTexts ('"' :: rest) = numberTexts (afterString rest) := by
  rw [numberTexts, if_pos rfl]

theorem numberTexts_number (h : startsNumber c = true) (rest : List Char) :
    numberTexts (c :: rest) =
      (c :: rest.takeWhile isNumberChar) :: numberTexts (rest.dropWhile isNumberChar) := by
  have hne : c ≠ '"' := by
    rintro rfl
    exact absurd h (by decide)
  rw [numberTexts, if_neg hne, if_pos h]

/-- A character that starts neither a string nor a number. -/
def IsMark (c : Char) : Prop := c ≠ '"' ∧ startsNumber c = false

theorem numberTexts_mark (h : IsMark c) (rest : List Char) : numberTexts (c :: rest) = numberTexts rest := by
  rw [numberTexts, if_neg h.1, if_neg (by simp [h.2])]

/-! ### Strings -/

theorem afterString_plain (h : c ≠ '"' ∧ c ≠ '\\') (rest : List Char) :
    afterString (c :: rest) = afterString rest := by
  rw [afterString.eq_def]
  split <;> simp_all

theorem plain_of_digit (h : (Text.digit? 16 c).isSome) : c ≠ '"' ∧ c ≠ '\\' := by
  constructor <;> (rintro rfl; revert h; decide)

theorem afterString_hex {a b c d : Char} (h : (Text.readBase? 16 [a, b, c, d]).isSome) (rest : List Char) :
    afterString (a :: b :: c :: d :: rest) = afterString rest := by
  have hdigits : (Text.digit? 16 a).isSome ∧ (Text.digit? 16 b).isSome ∧ (Text.digit? 16 c).isSome ∧
      (Text.digit? 16 d).isSome := by
    revert h
    cases ha : Text.digit? 16 a <;> cases hb : Text.digit? 16 b <;> cases hc : Text.digit? 16 c <;>
      cases hd : Text.digit? 16 d <;> simp [Text.readBase?, ha, hb, hc, hd]
  obtain ⟨ha, hb, hc, hd⟩ := hdigits
  rw [afterString_plain (plain_of_digit ha), afterString_plain (plain_of_digit hb),
    afterString_plain (plain_of_digit hc), afterString_plain (plain_of_digit hd)]

theorem afterString_readHex {n : Nat} (h : readHex cs = .ok (n, rest)) : afterString cs = afterString rest := by
  unfold readHex at h
  split at h
  · split at h
    · next hread =>
      obtain ⟨rfl, rfl⟩ := Prod.mk.inj (Except.ok.inj h)
      exact afterString_hex (by simp [hread]) _
    · simp at h
  · split at h <;> simp at h

/-- An escape has no quote that ends the string. -/
theorem afterString_readEscape (h : readEscape cs = .ok (c, rest)) :
    afterString ('\\' :: cs) = afterString rest := by
  unfold readEscape at h
  split at h
  case h_10 cs =>
    rw [afterString]
    split at h
    · simp at h
    · next n after hfirst =>
      rw [afterString_readHex hfirst]
      split at h
      · simp at h
      split at h
      · obtain ⟨-, rfl⟩ := Prod.mk.inj (Except.ok.inj h)
        rfl
      split at h
      · simp at h
      · simp at h
      · split at h
        · simp at h
        · next low hlow =>
          split at h
          · simp at h
          · obtain ⟨-, rfl⟩ := Prod.mk.inj (Except.ok.inj h)
            rw [afterString, afterString_readHex hlow]
      · simp at h
  all_goals first
    | (obtain ⟨-, rfl⟩ := Prod.mk.inj (Except.ok.inj h); rw [afterString])
    | simp at h

/-- The reader of strings stops where a string ends. -/
theorem afterString_readChars {text : List Char} (h : readChars cs = .ok (text, rest)) :
    afterString cs = rest := by
  fun_induction readChars cs generalizing text rest with
  | case1 => simp at h
  | case2 rest' =>
    obtain ⟨-, rfl⟩ := Prod.mk.inj (Except.ok.inj h)
    rw [afterString]
  | case3 => simp at h
  | case4 cs c after hescape _ _ ih =>
    obtain ⟨r, hr, hsame⟩ := map_eq_ok.mp h
    obtain ⟨-, rfl⟩ := Prod.mk.inj hsame
    rw [afterString_readEscape hescape]
    exact ih hr
  | case5 => simp at h
  | case6 c cs hquote hbackslash _ ih =>
    obtain ⟨r, hr, hsame⟩ := map_eq_ok.mp h
    obtain ⟨-, rfl⟩ := Prod.mk.inj hsame
    rw [afterString_plain ⟨hquote, hbackslash⟩]
    exact ih hr

theorem numberTexts_readString {s : String} (h : readString cs = .ok (s, rest)) :
    numberTexts ('"' :: cs) = numberTexts rest := by
  obtain ⟨r, hr, hsame⟩ := map_eq_ok.mp h
  obtain ⟨-, rfl⟩ := Prod.mk.inj hsame
  rw [numberTexts_quote, afterString_readChars hr]

/-- A string that is passed over ends there too. -/
theorem afterString_skipString (h : skipString cs = .ok rest) : afterString cs = rest := by
  fun_induction skipString cs with
  | case1 => simp at h
  | case2 rest' =>
    obtain rfl := Except.ok.inj h
    rw [afterString]
  | case4 a b c d rest' hhex ih =>
    rw [afterString, afterString_hex hhex]
    exact ih h
  | case8 c rest' _ _ _ ih =>
    rw [afterString]
    exact ih h
  | case11 c rest' hquote hbackslash _ ih =>
    rw [afterString_plain ⟨hquote, hbackslash⟩]
    exact ih h
  | _ => simp at h

theorem numberTexts_skipString (h : skipString cs = .ok rest) :
    numberTexts ('"' :: cs) = numberTexts rest := by
  rw [numberTexts_quote, afterString_skipString h]

/-! ### Blanks, words and punctuation -/

instance : Decidable (IsMark c) := inferInstanceAs (Decidable (_ ∧ _))

theorem isMark_of_isSpace (h : isSpace c = true) : IsMark c := by
  simp only [isSpace, Bool.or_eq_true, beq_iff_eq] at h
  obtain ((rfl | rfl) | rfl) | rfl := h <;> decide

theorem numberTexts_skipSpace (cs : List Char) : numberTexts (skipSpace cs) = numberTexts cs := by
  induction cs with
  | nil => rfl
  | cons c cs ih =>
    by_cases hc : isSpace c = true
    · rw [skipSpace, List.dropWhile_cons_of_pos hc, numberTexts_mark (isMark_of_isSpace hc)]
      exact ih
    · rw [skipSpace, List.dropWhile_cons_of_neg hc]

/-- A mark after blanks has no part in a number. -/
theorem numberTexts_skipped (h : skipSpace cs = c :: rest) (hc : IsMark c) :
    numberTexts cs = numberTexts rest := by
  rw [← numberTexts_skipSpace, h, numberTexts_mark hc]

theorem numberTexts_readWord {letters : List Char} (hletters : letters.all (IsMark ·) = true)
    (h : readWord letters cs = .ok rest) : numberTexts cs = numberTexts rest := by
  fun_induction readWord letters cs with
  | case1 cs =>
    rw [Except.ok.inj h]
  | case2 => simp at h
  | case3 c letters cs ih =>
    rw [List.all_cons, Bool.and_eq_true, decide_eq_true_eq] at hletters
    obtain ⟨hc, hletters⟩ := hletters
    rw [numberTexts_mark hc]
    exact ih hletters h
  | case4 => simp at h

theorem numberTexts_itemAhead {first : Bool} (h : itemAhead? first cs = .ok (some rest)) :
    numberTexts cs = numberTexts rest := by
  unfold itemAhead? at h
  split at h
  · simp at h
  · simp at h
  · next c after _ hskip =>
    split at h
    · rw [← Option.some.inj (Except.ok.inj h), ← hskip, numberTexts_skipSpace]
    split at h
    · next hc =>
      subst hc
      rw [numberTexts_skipped hskip (by decide)]
      split at h
      · simp at h
      · simp at h
      · rw [← Option.some.inj (Except.ok.inj h), numberTexts_skipSpace]
    · simp at h

theorem numberTexts_closeList (h : closeList cs = .ok rest) : numberTexts cs = numberTexts rest := by
  unfold closeList at h
  split at h
  · simp at h
  · next after hskip =>
    rw [numberTexts_skipped hskip (by decide), Except.ok.inj h]
  · split at h <;> simp at h
  · simp at h

theorem numberTexts_keyAhead {first : Bool} {key : String}
    (h : keyAhead? first cs = .ok (some (key, rest))) : numberTexts cs = numberTexts rest := by
  have hkey {cs : List Char} (h : (readString cs).map some = .ok (some (key, rest))) :
      numberTexts ('"' :: cs) = numberTexts rest := by
    obtain ⟨r, hr, hsame⟩ := map_eq_ok.mp h
    rw [Option.some.inj hsame] at hr
    exact numberTexts_readString hr
  unfold keyAhead? at h
  split at h
  · simp at h
  · simp at h
  · next c after _ hskip =>
    split at h
    · split at h
      · next hc =>
        rw [← numberTexts_skipSpace, hskip, hc]
        exact hkey h
      · simp at h
    split at h
    · next hc =>
      subst hc
      rw [numberTexts_skipped hskip (by decide), ← numberTexts_skipSpace]
      split at h
      · simp at h
      · next hquote =>
        rw [hquote]
        exact hkey h
      · simp at h
      · simp at h
    · simp at h

theorem numberTexts_readColon (h : readColon cs = .ok rest) : numberTexts cs = numberTexts rest := by
  unfold readColon at h
  split at h
  · simp at h
  · next hskip => rw [numberTexts_skipped hskip (by decide), Except.ok.inj h]
  · simp at h

theorem numberTexts_closeObject (h : closeObject cs = .ok rest) : numberTexts cs = numberTexts rest := by
  unfold closeObject at h
  split at h
  · simp at h
  · next hskip => rw [numberTexts_skipped hskip (by decide), Except.ok.inj h]
  · simp at h
  · simp at h

/-! ### Whole numbers -/

/-- All numbers of the text satisfy `N`. -/
def Numbers (N : List Char → Prop) (cs : List Char) : Prop := ∀ text ∈ numberTexts cs, N text

/-- How a whole number of 64 bits is written. -/
def IsWhole (text : List Char) : Prop := ∃ n, Is64Bit n ∧ text = renderInt n

/-- Where whole numbers are written, the next one ends before what follows it. -/
theorem Numbers.exists_renderInt (h : Numbers IsWhole (c :: cs)) (hc : startsNumber c = true) :
    ∃ n rest, Is64Bit n ∧ c :: cs = renderInt n ++ rest ∧ EndsNumber rest ∧ Numbers IsWhole rest := by
  rw [Numbers, numberTexts_number hc, List.forall_mem_cons] at h
  obtain ⟨⟨n, hn, htext⟩, hrest⟩ := h
  refine ⟨n, cs.dropWhile isNumberChar, hn, ?_, fun d hd => ?_, hrest⟩
  · rw [← htext, List.cons_append, List.takeWhile_append_dropWhile]
  · have hfirst := List.head?_dropWhile_not isNumberChar cs
    rw [hd] at hfirst
    simpa using hfirst

theorem Numbers.exists_negative (h : Numbers IsWhole ('-' :: cs)) :
    ∃ n rest, Is64Bit n ∧ n < 0 ∧ cs = Nat.toDigits 10 n.natAbs ++ rest ∧ EndsNumber rest ∧
      Numbers IsWhole rest := by
  obtain ⟨n, rest, hn, htext, hend, hrest⟩ := h.exists_renderInt (by decide)
  unfold renderInt at htext
  split at htext
  · next hneg => exact ⟨n, rest, hn, hneg, (List.cons.inj htext).2, hend, hrest⟩
  · obtain ⟨d, ds, hdigits⟩ := List.exists_cons_of_ne_nil (Nat.toDigits_ne_nil (b := 10) (n := n.natAbs))
    have hdigit : d.isDigit = true := isDigit_of_mem (hdigits ▸ List.mem_cons_self)
    rw [hdigits] at htext
    obtain ⟨rfl, -⟩ := List.cons.inj htext
    exact absurd hdigit (by decide)

theorem Numbers.exists_digits (h : Numbers IsWhole (c :: cs)) (hc : c.isDigit = true) :
    ∃ n rest, Is64Bit n ∧ ¬n < 0 ∧ c :: cs = Nat.toDigits 10 n.natAbs ++ rest ∧ EndsNumber rest ∧
      Numbers IsWhole rest := by
  obtain ⟨n, rest, hn, htext, hend, hrest⟩ := h.exists_renderInt (by simp [startsNumber, hc])
  unfold renderInt at htext
  split at htext
  · obtain ⟨rfl, -⟩ := List.cons.inj htext
    exact absurd hc (by decide)
  · next hpos => exact ⟨n, rest, hn, hpos, htext, hend, hrest⟩

end TaskDialogue.Json
