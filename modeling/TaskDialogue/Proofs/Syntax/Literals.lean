import TaskDialogue.Proofs.Syntax.Erasure
import TaskDialogue.Proofs.Syntax.Items

/-!
# Constants

Words, integers and strings in their written form are read as the constants that they denote. The
alternatives that are tried before the right one refuse: an integer starts no word, and a string
starts neither a word nor a number.
-/
namespace TaskDialogue.Syntax

open Pattern

/-- What may follow an expression that stands within another one, and the end of the text. -/
def Closes (tail : List Char) : Prop := ∀ c, tail.head? = some c → c = ',' ∨ c = ')' ∨ c = ']'

namespace Closes

variable {tail : List Char}

theorem cons {c : Char} (h : c = ',' ∨ c = ')' ∨ c = ']') (cs : List Char) : Closes (c :: cs) := by
  rintro _ ⟨⟩
  exact h

theorem nil : Closes [] := nofun

theorem endsWord (h : Closes tail) : EndsWord tail := by
  intro c hc
  obtain rfl | rfl | rfl := h c hc <;> rfl

theorem afterSpace (h : Closes tail) : afterSpace tail = tail := by
  cases tail with
  | nil => rfl
  | cons c cs => obtain rfl | rfl | rfl := h c rfl <;> exact afterSpace_cons (by decide) cs

/-- No other character comes first. -/
theorem head (h : Closes tail) {c : Char} (hc : c ∉ [',', ')', ']']) : tail.head? ≠ some c :=
  fun hhead => hc (by simpa using h c hhead)

theorem endsChain (h : Closes tail) : EndsChain tail := by
  rw [EndsChain, h.afterSpace]
  exact ⟨h.head (by decide), h.head (by decide), h.head (by decide)⟩

end Closes

section

variable {cs tail : List Char}

/-- What no word starts with is no identifier. -/
theorem refuses_identifier_of_start (h : ∀ c, cs.head? = some c → isIdentStart c = false) :
    identifier.Refuses cs := by
  have hword : (cs.takeWhile isIdentChar).head?.any isIdentStart = false := by
    cases cs with
    | nil => rfl
    | cons c rest =>
      rw [List.takeWhile_cons]
      split
      · exact h c rfl
      · rfl
  exact (refuses_token (by simp [scanIdentifier, hword])).map

theorem start_reserved {w : String} (hw : w ∈ reserved) : w.toList.head?.any isIdentStart = true := by
  revert w
  decide

/-- What no word starts with is none of the reserved words. -/
theorem scanWord_of_start (h : ∀ c, cs.head? = some c → isIdentStart c = false) {w : String}
    (hw : w ∈ reserved) : scanWord w cs = none := by
  have hstart := start_reserved hw
  have hne : cs.takeWhile isIdentChar ≠ w.toList := by
    intro heq
    rw [← heq] at hstart
    cases cs with
    | nil => simp at hstart
    | cons c rest =>
      rw [List.takeWhile_cons] at hstart
      split at hstart
      · simp [h c rfl] at hstart
      · simp at hstart
  simp [scanWord, hne]

theorem refuses_words (h : ∀ c, cs.head? = some c → isIdentStart c = false) :
    noneLit.Refuses cs ∧ booleanLit.Refuses cs := by
  have hboolean : scanBoolean cs = none := by
    simp [scanBoolean, scanWord_of_start h (w := "True") (by decide),
      scanWord_of_start h (w := "False") (by decide), scanWord_of_start h (w := "true") (by decide),
      scanWord_of_start h (w := "false") (by decide)]
  exact ⟨(refuses_token (scanWord_of_start h (by decide))).map, (refuses_token hboolean).map⟩

/-! ### Words -/

theorem chars_reserved {w : String} (hw : w ∈ reserved) : ∀ c ∈ w.toList, isIdentChar c = true := by
  have hall : ∀ w ∈ reserved, w.toList.all isIdentChar = true := by decide
  exact List.all_eq_true.mp (hall w hw)

/-- A reserved word is the word that it is, and no other one. -/
theorem scanWord_reserved {w v : String} (hv : v ∈ reserved) (htail : EndsWord tail) :
    scanWord w (v.toList ++ tail) = if v = w then some (v.toList, tail) else none := by
  have hchars := chars_reserved hv
  simp only [scanWord, takeWhile_word hchars htail, dropWhile_word hchars htail, String.toList_inj]

/-- A reserved word is no identifier. -/
theorem refuses_identifier_reserved {w : String} (hw : w ∈ reserved) (htail : EndsWord tail) :
    identifier.Refuses (w.toList ++ tail) := by
  have hreserved : reserved.any (·.toList = w.toList) = true :=
    List.any_eq_true.mpr ⟨w, hw, by simp⟩
  have hscan : scanIdentifier (w.toList ++ tail) = none := by
    simp only [scanIdentifier, takeWhile_word (chars_reserved hw) htail, hreserved]
    simp
  exact (refuses_token hscan).map

theorem reads_none (htail : EndsWord tail) :
    literal.Reads ("None".toList ++ tail) (fun d => ∃ s, d = .ok (.none s)) tail := by
  have hscan := scanWord_reserved (w := "None") (v := "None") (by decide) htail
  rw [if_pos rfl] at hscan
  exact ((reads_token hscan).map fun r _ => ⟨r.2, rfl⟩).orElse

theorem scanBoolean_word {v : String} (hv : v ∈ ["True", "False"]) (htail : EndsWord tail) :
    scanBoolean (v.toList ++ tail) = some (v.toList, tail) := by
  have hreserved : v ∈ reserved := by
    revert v
    decide
  simp only [scanBoolean, scanWord_reserved hreserved htail]
  generalize (v.toList, tail) = taken
  obtain rfl | rfl : v = "True" ∨ v = "False" := by simpa using hv
  · simp
  · simp

theorem reads_bool (b : Bool) (htail : EndsWord tail) :
    literal.Reads ((if b then "True" else "False").toList ++ tail)
      (fun d => ∃ s, d = .ok (.bool b s)) tail := by
  have hv : (if b then "True" else "False") ∈ ["True", "False"] := by cases b <;> simp
  have hnone : scanWord "None" ((if b then "True" else "False").toList ++ tail) = none := by
    rw [scanWord_reserved (by cases b <;> decide) htail, if_neg (by cases b <;> decide)]
  exact (refuses_token hnone).map.orElse
    (((reads_token (scanBoolean_word hv htail)).map fun r hr => ⟨r.2, by cases b <;> rw [hr] <;> rfl⟩).orElse)

/-! ### Integers -/

theorem isIdentStart_of_isDigit {c : Char} (h : c.isDigit = true) : isIdentStart c = false := by
  refine Bool.eq_false_iff.mpr fun hstart => ?_
  simp [isDigit_of_isIdentStart hstart] at h

/-- No digit follows, and neither a point nor an exponent. -/
theorem scanNumber_digits {digits : List Char} (hne : digits ≠ [])
    (hdigits : ∀ c ∈ digits, c.isDigit = true) (htail : EndsWord tail) (hpoint : tail.head? ≠ some '.') :
    scanNumber (digits ++ tail) = some (digits, tail) ∧
      scanNumber ('-' :: (digits ++ tail)) = some ('-' :: digits, tail) := by
  have hword : ∀ c, tail.head? = some c → c.isDigit = false ∧ c ≠ 'e' ∧ c ≠ 'E' := by
    intro c hc
    have hend := htail c hc
    refine ⟨?_, ?_, ?_⟩
    · simp only [isIdentChar, Char.isAlphanum, Bool.or_eq_false_iff] at hend
      exact hend.1.2
    · rintro rfl
      exact absurd hend (by decide)
    · rintro rfl
      exact absurd hend (by decide)
  have htake : (digits ++ tail).takeWhile Char.isDigit = digits := by
    rw [List.takeWhile_append_of_pos hdigits]
    cases tail with
    | nil => simp
    | cons c rest => simp [(hword c rfl).1]
  have hdrop : (digits ++ tail).dropWhile Char.isDigit = tail := by
    rw [List.dropWhile_append_of_pos hdigits]
    cases tail with
    | nil => simp
    | cons c rest => simp [(hword c rfl).1]
  have hfraction : scanFraction tail = ([], tail) := by
    cases tail with
    | nil => rfl
    | cons c rest =>
      have hc : c ≠ '.' := by simpa using hpoint
      simp [scanFraction, hc]
  have hexponent : scanExponent tail = ([], tail) := by
    cases tail with
    | nil => rfl
    | cons c rest => simp [scanExponent, (hword c rfl).2]
  have hminus : ∀ c rest, digits ++ tail = c :: rest → c ≠ '-' := by
    rintro c rest hcons rfl
    obtain ⟨d, ds, rfl⟩ := List.exists_cons_of_ne_nil hne
    obtain ⟨rfl, -⟩ := List.cons.inj hcons
    exact absurd (hdigits _ List.mem_cons_self) (by decide)
  constructor
  · unfold scanNumber
    split
    next sign cs heq =>
    split at heq
    · next rest hcons => exact absurd rfl (hminus '-' rest hcons)
    · obtain ⟨rfl, rfl⟩ := Prod.mk.inj heq
      simp [htake, hdrop, hfraction, hexponent, hne]
  · simp [scanNumber, htake, hdrop, hfraction, hexponent, hne]

theorem isDigit_of_mem_natAbs {n : Int} {c : Char} (h : c ∈ Nat.toDigits 10 n.natAbs) :
    c.isDigit = true :=
  Nat.isDigit_of_mem_toDigits (by decide) (by decide) h

theorem scanNumber_renderInt (n : Int) (htail : EndsWord tail) (hpoint : tail.head? ≠ some '.') :
    scanNumber (Json.renderInt n ++ tail) = some (Json.renderInt n, tail) := by
  have hscan := scanNumber_digits (Nat.toDigits_ne_nil (b := 10) (n := n.natAbs))
    (fun c hc => isDigit_of_mem_natAbs hc) htail hpoint
  unfold Json.renderInt
  split
  · exact hscan.2
  · exact hscan.1

theorem readInteger_digits {digits : List Char} (hdigits : ∀ c ∈ digits, c.isDigit = true) :
    readInteger digits = Nat.ofDigitChars 10 digits 0 := by
  unfold readInteger
  split
  · exact absurd (hdigits '-' List.mem_cons_self) (by decide)
  · rfl

theorem readInteger_renderInt (n : Int) : readInteger (Json.renderInt n) = n := by
  have hvalue : Nat.ofDigitChars 10 (Nat.toDigits 10 n.natAbs) 0 = n.natAbs :=
    Nat.ofDigitChars_toDigits (by decide) (by decide)
  unfold Json.renderInt
  split
  · simp only [readInteger, hvalue]
    omega
  · rw [readInteger_digits fun c hc => isDigit_of_mem_natAbs hc, hvalue]
    omega

theorem isDecimal_renderInt (n : Int) : isDecimal (Json.renderInt n) = false := by
  have hdigits : (Nat.toDigits 10 n.natAbs).any (fun c => c == '.' || c == 'e' || c == 'E') = false := by
    simp only [List.any_eq_false, Bool.or_eq_true, beq_iff_eq, not_or]
    refine fun c hc => ⟨⟨?_, ?_⟩, ?_⟩ <;> rintro rfl <;>
      exact absurd (isDigit_of_mem_natAbs hc) (by decide)
  unfold isDecimal Json.renderInt
  split
  · simpa using hdigits
  · exact hdigits

/-- An integer of 64 bits is read back. -/
theorem number_renderInt (n : Int64) (span : Span) :
    number (Json.renderInt n.toInt) span = .ok (.int n span) := by
  have hle : n.toInt ≤ Int64.maxValue.toInt := Int64.toInt_le n
  have hge : Int64.minValue.toInt ≤ n.toInt := Int64.le_toInt n
  simp only [number, isDecimal_renderInt, readInteger_renderInt, Bool.false_eq_true, if_false,
    if_neg (Int.not_lt.mpr hle), if_neg (Int.not_lt.mpr hge), Int64.ofInt_toInt]

/-- An integer starts with a minus sign or a digit. -/
theorem start_renderInt (n : Int) :
    ∃ c cs, Json.renderInt n = c :: cs ∧ (c = '-' ∨ c.isDigit = true) := by
  unfold Json.renderInt
  split
  · exact ⟨'-', _, rfl, .inl rfl⟩
  · obtain ⟨c, cs, hcons⟩ := List.exists_cons_of_ne_nil (Nat.toDigits_ne_nil (b := 10) (n := n.natAbs))
    exact ⟨c, cs, hcons, .inr (isDigit_of_mem_natAbs (by rw [hcons]; exact List.mem_cons_self))⟩

theorem reads_int (n : Int64) (htail : EndsWord tail) (hpoint : tail.head? ≠ some '.') :
    literal.Reads (Json.renderInt n.toInt ++ tail) (fun d => ∃ s, d = .ok (.int n s)) tail := by
  have hstart : ∀ c, (Json.renderInt n.toInt ++ tail).head? = some c → isIdentStart c = false := by
    obtain ⟨c, cs, hcons, hc⟩ := start_renderInt n.toInt
    rw [hcons]
    rintro _ ⟨⟩
    obtain rfl | hdigit := hc
    · rfl
    · exact isIdentStart_of_isDigit hdigit
  obtain ⟨hnone, hboolean⟩ := refuses_words hstart
  have hnumber : numberLit.Reads (Json.renderInt n.toInt ++ tail) (fun d => ∃ s, d = .ok (.int n s))
      tail :=
    (reads_token (scanNumber_renderInt n.toInt htail hpoint)).map fun r hr =>
      ⟨r.2, by rw [hr, number_renderInt]⟩
  exact hnone.orElse (hboolean.orElse hnumber.orElse)

/-! ### Strings -/

theorem reads_str (text tail : List Char) :
    literal.Reads (quote text ++ tail) (fun d => ∃ s, d = .ok (.str (String.ofList text) s)) tail := by
  obtain ⟨hnone, hboolean, hnumber⟩ := refuses_unquoted (text.flatMap quoteChar ++ ['"'] ++ tail)
  have hstring : stringLit.Reads (quote text ++ tail)
      (fun d => ∃ s, d = .ok (.str (String.ofList text) s)) tail := by
    refine (reads_token (scanString_quote text tail)).map fun r hr => ⟨r.2, ?_⟩
    simp only [hr, quote, List.tail_cons, List.dropLast_concat, unescape_flatMap_quoteChar]
  exact hnone.orElse (hboolean.orElse (hnumber.orElse hstring))

end

end TaskDialogue.Syntax
