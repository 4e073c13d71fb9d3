import Mathlib.Algebra.Ring.Int.Defs
import TaskDialogue.Proofs.Syntax.Literals
import TaskDialogue.Proofs.Syntax.Words

/-!
# Numbers as they are written

A number is a sign, digits, and perhaps a fraction and an exponent. The scanner takes exactly these
words. One that has neither fraction nor exponent is read as the integer that it writes, whatever
its length and leading zeros, or is refused when no word of 64 bits holds that integer; every other
one is read as a double.
-/
namespace TaskDialogue.Syntax

open Pattern

/-- Decimal digits, one or more. -/
structure Digits where
  chars : List Char
  nonempty : chars ≠ []
  allDigits : chars.all Char.isDigit = true

/-- The exponent of a number, with its letter and its sign. -/
structure Exponent where
  letter : Char
  sign : List Char
  digits : Digits
  isLetter : letter = 'e' ∨ letter = 'E'
  isSign : sign = [] ∨ sign = ['+'] ∨ sign = ['-']

/-- A number as it is written. -/
structure Numeral where
  negative : Bool
  whole : Digits
  fraction : Option Digits
  exponent : Option Exponent

namespace Digits

def toNat (d : Digits) : Nat := Nat.ofDigitChars 10 d.chars 0

theorem digits (d : Digits) : ∀ c ∈ d.chars, c.isDigit = true := List.all_eq_true.mp d.allDigits

end Digits

namespace Exponent

def chars (e : Exponent) : List Char := e.letter :: (e.sign ++ e.digits.chars)

def toInt (e : Exponent) : Int := if e.sign = ['-'] then -e.digits.toNat else e.digits.toNat

end Exponent

namespace Numeral

def sign (n : Numeral) : List Char := if n.negative then ['-'] else []

/-- The fraction with its point. -/
def point (n : Numeral) : List Char := n.fraction.elim [] fun d => '.' :: d.chars

/-- The exponent with its letter. -/
def power (n : Numeral) : List Char := n.exponent.elim [] Exponent.chars

/-- The text of a number. -/
def chars (n : Numeral) : List Char := n.sign ++ n.whole.chars ++ n.point ++ n.power

/-- A number without fraction and exponent. -/
def IsWhole (n : Numeral) : Prop := n.fraction = none ∧ n.exponent = none

/-- The integer that a number without fraction and exponent writes. -/
def toInt (n : Numeral) : Int := if n.negative then -n.whole.toNat else n.whole.toNat

/-- The double nearest to the decimal that a number writes. -/
def toDouble (n : Numeral) : Double :=
  let fraction := n.fraction.elim [] Digits.chars
  .ofScientific n.negative (Nat.ofDigitChars 10 (n.whole.chars ++ fraction) 0)
    (n.exponent.elim 0 Exponent.toInt - fraction.length)

end Numeral

/-! ### The scanner takes numbers -/

/-- No digit comes first. -/
def EndsDigits (tail : List Char) : Prop := ∀ c, tail.head? = some c → c.isDigit = false

section

variable {tail : List Char}

theorem Digits.takeWhile_append (d : Digits) (h : EndsDigits tail) :
    (d.chars ++ tail).takeWhile Char.isDigit = d.chars := by
  rw [List.takeWhile_append_of_pos d.digits]
  cases tail with
  | nil => simp
  | cons c rest => simp [h c rfl]

theorem Digits.dropWhile_append (d : Digits) (h : EndsDigits tail) :
    (d.chars ++ tail).dropWhile Char.isDigit = tail := by
  rw [List.dropWhile_append_of_pos d.digits]
  cases tail with
  | nil => simp
  | cons c rest => simp [h c rfl]

theorem Digits.head_isDigit (d : Digits) : ∃ c, d.chars.head? = some c ∧ c.isDigit = true := by
  obtain ⟨c, rest, hcons⟩ := List.exists_cons_of_ne_nil d.nonempty
  exact ⟨c, by rw [hcons, List.head?_cons], d.digits c (hcons ▸ List.mem_cons_self)⟩

theorem Digits.head_any (d : Digits) (next : Option Char) :
    (d.chars.head?.or next).any Char.isDigit = true := by
  obtain ⟨c, hc, hdigit⟩ := d.head_isDigit
  simp [hc, hdigit]

/-- What is no digit does not come first. -/
theorem Digits.head_ne (d : Digits) (tail : List Char) {c : Char} (hc : c.isDigit = false) :
    (d.chars ++ tail).head? ≠ some c := by
  obtain ⟨_, hhead, hdigit⟩ := d.head_isDigit
  rw [List.head?_append, hhead]
  rintro ⟨⟩
  simp [hdigit] at hc

theorem scanFraction_point (d : Digits) (h : EndsDigits tail) :
    scanFraction ('.' :: d.chars ++ tail) = ('.' :: d.chars, tail) := by
  simp [scanFraction, d.head_any, d.takeWhile_append h, d.dropWhile_append h]

theorem scanExponent_chars (e : Exponent) (h : EndsDigits tail) :
    scanExponent (e.chars ++ tail) = (e.chars, tail) := by
  obtain ⟨letter, sign, d, hletter, hsign⟩ := e
  obtain rfl | rfl | rfl := hsign
  · have hunsigned := scanExponent_unsigned hletter (d.head_ne tail (c := '+') rfl)
      (d.head_ne tail (c := '-') rfl)
    simpa [Exponent.chars, d.head_any, d.takeWhile_append h, d.dropWhile_append h] using hunsigned
  · obtain rfl | rfl := hletter <;>
      simp [Exponent.chars, scanExponent, d.head_any, d.takeWhile_append h, d.dropWhile_append h]
  · obtain rfl | rfl := hletter <;>
      simp [Exponent.chars, scanExponent, d.head_any, d.takeWhile_append h, d.dropWhile_append h]

/-- Nothing follows that would be part of a number. -/
structure EndsNumeral (tail : List Char) : Prop where
  digits : EndsDigits tail
  point : tail.head? ≠ some '.'
  letter : tail.head? ≠ some 'e' ∧ tail.head? ≠ some 'E'

theorem EndsNumeral.nil : EndsNumeral [] := ⟨nofun, nofun, nofun, nofun⟩

theorem Numeral.scanExponent_power (n : Numeral) (h : EndsNumeral tail) :
    scanExponent (n.power ++ tail) = (n.power, tail) := by
  unfold power
  cases n.exponent with
  | none => exact scanExponent_of_head h.letter
  | some e => exact scanExponent_chars e h.digits

theorem Numeral.endsDigits_power (n : Numeral) (h : EndsNumeral tail) :
    EndsDigits (n.power ++ tail) := by
  unfold power
  cases n.exponent with
  | none => exact h.digits
  | some e =>
    rintro _ ⟨⟩
    obtain hletter | hletter := e.isLetter <;> rw [hletter] <;> rfl

/-- No exponent starts with a point. -/
theorem Numeral.head_power (n : Numeral) (h : tail.head? ≠ some '.') :
    (n.power ++ tail).head? ≠ some '.' := by
  unfold power
  cases n.exponent with
  | none => exact h
  | some e => obtain hletter | hletter := e.isLetter <;> simp [Exponent.chars, hletter]

theorem Numeral.scanFraction_point (n : Numeral) (h : EndsNumeral tail) :
    scanFraction (n.point ++ (n.power ++ tail)) = (n.point, n.power ++ tail) := by
  unfold point
  cases n.fraction with
  | none => exact scanFraction_of_head (n.head_power h.point)
  | some d => exact Syntax.scanFraction_point d (n.endsDigits_power h)

theorem Numeral.endsDigits_point (n : Numeral) (h : EndsNumeral tail) :
    EndsDigits (n.point ++ (n.power ++ tail)) := by
  unfold point
  cases n.fraction with
  | none => exact n.endsDigits_power h
  | some d =>
    rintro _ ⟨⟩
    rfl

/-- A number is taken whole. -/
theorem Numeral.scanNumber_chars (n : Numeral) (h : EndsNumeral tail) :
    scanNumber (n.chars ++ tail) = some (n.chars, tail) := by
  have hunsigned : ∀ sign, scanUnsigned sign (n.whole.chars ++ (n.point ++ (n.power ++ tail))) =
      some (sign ++ n.whole.chars ++ n.point ++ n.power, tail) := by
    intro sign
    simp only [scanUnsigned, n.whole.takeWhile_append (n.endsDigits_point h),
      n.whole.dropWhile_append (n.endsDigits_point h), n.scanFraction_point h,
      n.scanExponent_power h, List.isEmpty_iff, n.whole.nonempty, if_false]
  simp only [chars, sign, List.append_assoc] at hunsigned ⊢
  split
  · exact (scanNumber_minus _).trans (hunsigned ['-'])
  · exact (scanNumber_of_unsigned (n.whole.head_ne _ rfl)).trans (hunsigned [])

end

/-! ### Only numbers are taken -/

theorem exists_digits {cs : List Char} (h : cs.head?.any Char.isDigit = true) :
    ∃ d : Digits, d.chars = cs.takeWhile Char.isDigit := by
  refine ⟨⟨cs.takeWhile Char.isDigit, ?_, List.all_takeWhile⟩, rfl⟩
  cases cs with
  | nil => simp at h
  | cons c rest =>
    have hc : c.isDigit = true := by simpa using h
    simp [hc]

theorem exists_fraction (cs : List Char) :
    ∃ f : Option Digits, f.elim [] (fun d => '.' :: d.chars) = (scanFraction cs).1 := by
  unfold scanFraction
  split
  · split
    · next rest h =>
      obtain ⟨d, hd⟩ := exists_digits h
      exact ⟨some d, by simp [hd]⟩
    · exact ⟨none, rfl⟩
  · exact ⟨none, rfl⟩

theorem exists_exponent (cs : List Char) :
    ∃ e : Option Exponent, e.elim [] Exponent.chars = (scanExponent cs).1 := by
  have hdigits : ∀ (letter : Char) (sign rest : List Char), (letter = 'e' ∨ letter = 'E') →
      (sign = [] ∨ sign = ['+'] ∨ sign = ['-']) → ∃ e : Option Exponent,
        e.elim [] Exponent.chars = (if rest.head?.any Char.isDigit then
          (letter :: sign ++ rest.takeWhile Char.isDigit, rest.dropWhile Char.isDigit)
          else ([], cs)).1 := by
    intro letter sign rest hletter hsign
    split
    · next h =>
      obtain ⟨d, hd⟩ := exists_digits h
      exact ⟨some ⟨letter, sign, d, hletter, hsign⟩, by simp [Exponent.chars, hd]⟩
    · exact ⟨none, rfl⟩
  unfold scanExponent
  split
  · exact ⟨none, rfl⟩
  · next letter rest =>
    split
    · next h =>
      have hletter : letter = 'e' ∨ letter = 'E' := by simpa using h
      split
      · exact hdigits letter ['+'] _ hletter (.inr (.inl rfl))
      · exact hdigits letter ['-'] _ hletter (.inr (.inr rfl))
      · exact hdigits letter [] rest hletter (.inl rfl)
    · exact ⟨none, rfl⟩

/-- Whatever the scanner takes is a number. -/
theorem exists_numeral {cs word rest : List Char} (h : scanNumber cs = some (word, rest)) :
    ∃ n : Numeral, n.chars = word := by
  have hunsigned : ∀ (negative : Bool) (ds : List Char),
      scanUnsigned (if negative then ['-'] else []) ds = some (word, rest) →
        ∃ n : Numeral, n.chars = word := by
    intro negative ds hds
    unfold scanUnsigned at hds
    split at hds
    · cases hds
    · next hne =>
      obtain ⟨f, hf⟩ := exists_fraction (ds.dropWhile Char.isDigit)
      obtain ⟨e, he⟩ := exists_exponent (scanFraction (ds.dropWhile Char.isDigit)).2
      refine ⟨⟨negative, ⟨ds.takeWhile Char.isDigit, by simpa using hne, List.all_takeWhile⟩, f, e⟩,
        ?_⟩
      simp only [Option.some.injEq, Prod.mk.injEq] at hds
      simpa only [Numeral.chars, Numeral.sign, Numeral.point, Numeral.power, hf, he] using hds.1
  by_cases hminus : cs.head? = some '-'
  · obtain ⟨ds, rfl⟩ := List.head?_eq_some_iff.mp hminus
    exact hunsigned true ds h
  · exact hunsigned false cs (scanNumber_of_unsigned hminus ▸ h)

/-! ### What numbers mean -/

namespace Numeral

variable {n : Numeral}

theorem isDecimal_iff : isDecimal n.chars = true ↔ ¬n.IsWhole := by
  have hdigits : ∀ d : Digits, isDecimal d.chars = false := by
    intro d
    simp only [isDecimal, List.any_eq_false, Bool.or_eq_true, beq_iff_eq, not_or]
    refine fun c hc => ⟨⟨?_, ?_⟩, ?_⟩ <;> rintro rfl <;> exact absurd (d.digits _ hc) (by decide)
  have hsign : isDecimal n.sign = false := by
    unfold sign
    split <;> rfl
  have hpoint : isDecimal n.point = n.fraction.isSome := by
    unfold point
    cases n.fraction <;> simp [isDecimal]
  have hpower : isDecimal n.power = n.exponent.isSome := by
    unfold power
    cases n.exponent with
    | none => rfl
    | some e => obtain hletter | hletter := e.isLetter <;> simp [isDecimal, Exponent.chars, hletter]
  have happend : ∀ cs ds : List Char, isDecimal (cs ++ ds) = (isDecimal cs || isDecimal ds) :=
    fun cs ds => List.any_append
  simp only [chars, happend, hsign, hdigits, hpoint, hpower, Bool.false_or, Bool.or_eq_true,
    IsWhole, not_and_or, ← ne_eq, Option.ne_none_iff_isSome]

theorem readInteger_chars (h : n.IsWhole) : readInteger n.chars = n.toInt := by
  have hchars : n.chars = n.sign ++ n.whole.chars := by
    simp [chars, point, power, h.1, h.2]
  rw [hchars, sign, toInt]
  split
  · rfl
  · exact readInteger_digits n.whole.digits

/-- The sign of an exponent is taken off it. -/
theorem readInteger_exponent (e : Exponent) :
    (match e.chars with
      | _ :: '+' :: digits => readInteger digits
      | _ :: rest => readInteger rest
      | [] => 0) = e.toInt := by
  obtain ⟨letter, sign, d, hletter, hsign⟩ := e
  obtain rfl | rfl | rfl := hsign
  · obtain ⟨c, rest, hcons⟩ := List.exists_cons_of_ne_nil d.nonempty
    have hc : c ≠ '+' := by
      rintro rfl
      exact absurd (d.digits '+' (hcons ▸ List.mem_cons_self)) (by decide)
    simp only [Exponent.chars, Exponent.toInt, List.nil_append, hcons]
    split
    · next heq => simp [hc] at heq
    · next heq =>
      obtain ⟨-, rfl⟩ := List.cons.inj heq
      rw [← hcons, readInteger_digits d.digits]
      simp [Digits.toNat]
    · next heq => simp at heq
  · simp [Exponent.chars, Exponent.toInt, readInteger_digits d.digits, Digits.toNat]
  · simp [Exponent.chars, Exponent.toInt, readInteger, Digits.toNat]

theorem readInteger_power (n : Numeral) :
    (match n.power with
      | _ :: '+' :: digits => readInteger digits
      | _ :: rest => readInteger rest
      | [] => 0) = n.exponent.elim 0 Exponent.toInt := by
  unfold power
  cases n.exponent with
  | none => rfl
  | some e => exact readInteger_exponent e

/-- The fraction of a number is what follows its point. -/
theorem point_power_cases (n : Numeral) :
    (∃ d, n.fraction = some d ∧ n.point ++ n.power = '.' :: (d.chars ++ n.power)) ∨
      (n.fraction = none ∧ n.point ++ n.power = n.power ∧ n.power.head? ≠ some '.') := by
  unfold point
  cases n.fraction with
  | some d => exact .inl ⟨d, rfl, rfl⟩
  | none => exact .inr ⟨rfl, rfl, by simpa using @head_power [] n nofun⟩

theorem readDecimal_chars (n : Numeral) : readDecimal n.chars = n.toDouble := by
  have hdigits := n.endsDigits_point .nil
  have hpower := n.endsDigits_power .nil
  rw [List.append_nil] at hdigits hpower
  unfold readDecimal
  split
  next negative cs hcs =>
  obtain ⟨rfl, rfl⟩ : n.negative = negative ∧ n.whole.chars ++ (n.point ++ n.power) = cs := by
    simp only [chars, sign, List.append_assoc] at hcs
    cases hsign : n.negative with
    | true => simpa [hsign] using hcs
    | false =>
      simp only [hsign, Bool.false_eq_true, if_false, List.nil_append] at hcs
      split at hcs
      · next heq => exact absurd (congrArg List.head? heq) (n.whole.head_ne _ rfl)
      · simpa using hcs
  simp only [n.whole.takeWhile_append hdigits, n.whole.dropWhile_append hdigits, toDouble]
  obtain ⟨d, hfraction, hpoint⟩ | ⟨hfraction, hpoint, hhead⟩ := n.point_power_cases
  · simp only [hpoint, hfraction, d.takeWhile_append hpower, d.dropWhile_append hpower]
    exact congrArg (fun e => Double.ofScientific n.negative _ (e - _)) n.readInteger_power
  · rw [hpoint, hfraction]
    split
    · next heq => exact absurd (congrArg List.head? heq) hhead
    · exact congrArg (fun e => Double.ofScientific n.negative _ (e - _)) n.readInteger_power

theorem number_chars_of_not_whole (h : ¬n.IsWhole) (span : Span) :
    number n.chars span = .ok (.float n.toDouble span) := by
  rw [number, if_pos (isDecimal_iff.mpr h), readDecimal_chars]

theorem number_chars_of_whole (h : n.IsWhole) (span : Span) :
    number n.chars span =
      if Int64.maxValue.toInt < n.toInt then
        misused (.integerTooLarge (String.ofList n.chars)) span
      else if n.toInt < Int64.minValue.toInt then
        misused (.integerTooSmall (String.ofList n.chars)) span
      else .ok (.int (Int64.ofInt n.toInt) span) := by
  have hdecimal : ¬isDecimal n.chars = true := fun hdecimal => isDecimal_iff.mp hdecimal h
  rw [number, if_neg hdecimal, readInteger_chars h]

/-- A number is a double when it has a fraction or an exponent, and only then. -/
theorem number_isFloat_iff (span : Span) :
    (∃ x, number n.chars span = .ok (.float x span)) ↔ ¬n.IsWhole := by
  refine ⟨fun ⟨x, hx⟩ h => ?_, fun h => ⟨_, number_chars_of_not_whole h span⟩⟩
  rw [number_chars_of_whole h] at hx
  split at hx
  · cases hx
  · split at hx <;> cases hx

/-- A number starts with a minus sign or a digit. -/
theorem head_chars (n : Numeral) {c : Char} (h : n.chars.head? = some c) :
    c = '-' ∨ c.isDigit = true := by
  obtain ⟨d, hd, hdigit⟩ := n.whole.head_isDigit
  unfold chars sign at h
  split at h
  · exact .inl (by simpa [eq_comm] using h)
  · have hc : d = c := by simpa [hd] using h
    exact .inr (hc ▸ hdigit)

theorem head_chars_ne (n : Numeral) {c : Char} (hminus : c ≠ '-') (hdigit : c.isDigit = false) :
    n.chars.head? ≠ some c := by
  intro h
  obtain rfl | hc := n.head_chars h
  · exact hminus rfl
  · simp [hdigit] at hc

theorem isIdentStart_head (n : Numeral) :
    ∀ c, n.chars.head? = some c → isIdentStart c = false := by
  intro c hc
  obtain rfl | hdigit := n.head_chars hc
  · rfl
  · exact isIdentStart_of_isDigit hdigit

theorem afterSpace_chars (n : Numeral) : afterSpace n.chars = n.chars := by
  cases hcs : n.chars with
  | nil => rfl
  | cons c cs =>
    refine afterSpace_cons ?_ cs
    have hc : ∀ d, d ≠ '-' → d.isDigit = false → c ≠ d := fun d hminus hdigit heq =>
      n.head_chars_ne hminus hdigit (by rw [hcs, List.head?_cons, heq])
    simp [Cursor.isSpace, hc ' ' (by decide) rfl, hc '\t' (by decide) rfl, hc '\r' (by decide) rfl]

/-- A number is read by the alternative for numbers. -/
theorem read_literal (n : Numeral) (offset : Nat) :
    let stop := offset + Text.byteLength n.chars
    literal.read ⟨offset, n.chars⟩ = some (number n.chars ⟨offset, stop⟩, ⟨stop, []⟩) := by
  obtain ⟨hnone, hboolean⟩ := refuses_words n.isIdentStart_head
  have hscan := n.scanNumber_chars .nil
  rw [List.append_nil] at hscan
  simp [literal, orElse, hnone offset, hboolean offset, numberLit, Pattern.map, token, hscan,
    Cursor.after, Cursor.spanTo]

end Numeral

theorem skip_of_afterSpace {cs : List Char} (h : afterSpace cs = cs) (offset : Nat) :
    Cursor.skip ⟨offset, cs⟩ = ⟨offset, cs⟩ := by
  have hnone : cs.takeWhile Cursor.isSpace = [] := by
    have hsplit := List.takeWhile_append_dropWhile (p := Cursor.isSpace) (l := cs)
    rw [afterSpace] at h
    rw [h] at hsplit
    exact List.append_left_eq_self.mp hsplit
  rw [afterSpace] at h
  simp [Cursor.skip, Cursor.after, hnone, h]

/-- An expression that is the whole text, and that nothing is assigned to, is its only statement. -/
theorem read_turn_plain {e : Pattern (Draft Expr × Span)} {cs : List Char} {d : Draft Expr}
    {span : Span} {stop : Nat} (hvalue : e.read ⟨0, cs⟩ = some ((d, span), ⟨stop, []⟩))
    (htarget : (postfixExpr e).Refuses cs) (hspace : afterSpace cs = cs)
    (hseparator : separator.Refuses cs) :
    (turn e).read ⟨0, cs⟩ =
      some ([do let value ← d; exprStmt value ⟨0, stop⟩], ⟨stop, []⟩) := by
  have hitems : (tupleOf (postfixExpr e)).Refuses cs := by
    dsimp only [tupleOf]
    exact htarget.seq.map
  have htuple : (tupleAssign e).Refuses cs := ((hitems.rule _).map.seq.rule _).map
  have hassign : (assign e).Refuses cs := (htarget.seq.rule _).map
  have hstatement : (statement e).read ⟨0, cs⟩ =
      some (do let value ← d; exprStmt value ⟨0, stop⟩, ⟨stop, []⟩) := by
    simp [statement, Pattern.map, Pattern.rule, orElse, htuple 0, hassign 0, exprStatement, hvalue,
      Cursor.spanTo]
  have hend : Cursor.skip ⟨stop, []⟩ = ⟨stop, []⟩ := rfl
  have hnone : separator.read ⟨stop, []⟩ = none := rfl
  have hstatements : (statements e).read ⟨0, cs⟩ =
      some ([do let value ← d; exprStmt value ⟨0, stop⟩], ⟨stop, []⟩) := by
    simp [statements, Pattern.map, seq, seqLeft, seqRight, many, hstatement, hend, hnone]
  have hstart := skip_of_afterSpace hspace 0
  have hbefore : separator.many.read ⟨0, cs⟩ = some ([], ⟨0, cs⟩) := by
    simp [many, hseparator 0]
  have hlast : endOfText.read ⟨stop, []⟩ = some ((), ⟨stop, []⟩) := rfl
  have hfirst : nothing.read ⟨0, cs⟩ = some ((), ⟨0, cs⟩) := rfl
  simp [turn, Pattern.map, Pattern.rule, seq, seqLeft, seqRight, Pattern.optional, hfirst, hstart,
    hbefore, hstatements, hend, hlast]

end Syntax

open Syntax

/-- A text that is a number is a program of one statement, or is refused as the number is. -/
theorem Program.parse_numeral_chars (n : Numeral) :
    let span : Span := ⟨0, Text.byteLength n.chars⟩
    Program.parse (String.ofList n.chars) =
      (do let value ← number n.chars span; exprStmt value span).map fun stmt => ⟨[stmt]⟩ := by
  intro span
  have hne : n.chars ≠ [] := by
    simp [Numeral.chars, n.whole.nonempty]
  obtain ⟨e, he⟩ := expression_length hne
  have hliteral := n.read_literal 0
  rw [Nat.zero_add] at hliteral
  have hvalue : (expressionWith (expressionWith e)).read ⟨0, n.chars⟩ =
      some ((number n.chars span, span), ⟨Text.byteLength n.chars, []⟩) := by
    simp [expressionWith, Pattern.rule, Pattern.orElse, hliteral, Cursor.spanTo, span]
  have hread := read_turn_plain hvalue
    ((refuses_identifier_of_start n.isIdentStart_head).seq.rule _).map n.afterSpace_chars
    (refuses_separator (n.head_chars_ne (by decide) rfl) (n.head_chars_ne (by decide) rfl))
  delta Program.parse
  simp only [String.toList_ofList, he, hread]
  cases (do let value ← number n.chars span; exprStmt value span) <;> rfl

/-- A text of an optional minus sign and digits, of any length and with any leading zeros, is the
integer that it writes when a word of 64 bits holds it, and is refused at its place when none does:
it is never another integer, and never a double. Whatever the scanner takes as a number is one of
these texts, or has a fraction or an exponent, and then it is a double. -/
theorem Program.parse_numeral :
    (∀ n : Numeral,
      let text := String.ofList n.chars
      let span : Span := ⟨0, Text.byteLength n.chars⟩
      (n.IsWhole → -2 ^ 63 ≤ n.toInt → n.toInt < 2 ^ 63 →
        ∃ v : Int64, v.toInt = n.toInt ∧ Program.parse text = .ok ⟨[.expr (.int v span) span]⟩) ∧
      (n.IsWhole → 2 ^ 63 ≤ n.toInt →
        Program.parse text = .error (.misuse (.integerTooLarge text) span)) ∧
      (n.IsWhole → n.toInt < -2 ^ 63 →
        Program.parse text = .error (.misuse (.integerTooSmall text) span)) ∧
      (¬n.IsWhole → Program.parse text = .ok ⟨[.expr (.float n.toDouble span) span]⟩)) ∧
    ∀ cs word rest, scanNumber cs = some (word, rest) →
      ∃ n : Numeral, n.chars = word ∧
        ∀ span, (∃ x, number word span = .ok (.float x span)) ↔ ¬n.IsWhole := by
  have hmax : Int64.maxValue.toInt = 2 ^ 63 - 1 := by decide
  have hmin : Int64.minValue.toInt = -2 ^ 63 := by decide
  refine ⟨fun n => ⟨fun h hle hlt => ?_, fun h hle => ?_, fun h hlt => ?_, fun h => ?_⟩,
    fun cs word rest hscan => ?_⟩
  · refine ⟨Int64.ofInt n.toInt, Int64.toInt_ofInt_of_le hle hlt, ?_⟩
    rw [parse_numeral_chars, Numeral.number_chars_of_whole h, if_neg (by omega), if_neg (by omega)]
    rfl
  · rw [parse_numeral_chars, Numeral.number_chars_of_whole h, if_pos (by omega)]
    rfl
  · rw [parse_numeral_chars, Numeral.number_chars_of_whole h, if_neg (by omega), if_pos (by omega)]
    rfl
  · rw [parse_numeral_chars, Numeral.number_chars_of_not_whole h]
    rfl
  · obtain ⟨n, rfl⟩ := exists_numeral hscan
    exact ⟨n, rfl, fun span => Numeral.number_isFloat_iff span⟩

/-- The least integer of 64 bits with leading zeros, the integers past both ends, and a double. -/
theorem Program.parse_numeral_limits :
    (∃ v : Int64, v.toInt = -2 ^ 63 ∧ Program.parse "-009223372036854775808" =
      .ok ⟨[.expr (.int v ⟨0, 22⟩) ⟨0, 22⟩]⟩) ∧
    Program.parse "9223372036854775808" =
      .error (.misuse (.integerTooLarge "9223372036854775808") ⟨0, 19⟩) ∧
    Program.parse "-9223372036854775809" =
      .error (.misuse (.integerTooSmall "-9223372036854775809") ⟨0, 20⟩) ∧
    ∃ x, Program.parse "2e1" = .ok ⟨[.expr (.float x ⟨0, 3⟩) ⟨0, 3⟩]⟩ := by
  let least : Numeral := ⟨true, ⟨"009223372036854775808".toList, nofun, rfl⟩, none, none⟩
  let above : Numeral := ⟨false, ⟨"9223372036854775808".toList, nofun, rfl⟩, none, none⟩
  let below : Numeral := ⟨true, ⟨"9223372036854775809".toList, nofun, rfl⟩, none, none⟩
  let power : Numeral := ⟨false, ⟨['2'], nofun, rfl⟩, none,
    some ⟨'e', [], ⟨['1'], nofun, rfl⟩, .inl rfl, .inl rfl⟩⟩
  have hleast := (parse_numeral.1 least).1 ⟨rfl, rfl⟩ (by decide) (by decide)
  have habove := (parse_numeral.1 above).2.1 ⟨rfl, rfl⟩ (by decide)
  have hbelow := (parse_numeral.1 below).2.2.1 ⟨rfl, rfl⟩ (by decide)
  have hpower := (parse_numeral.1 power).2.2.2 nofun
  rw [show Text.byteLength least.chars = 22 by decide] at hleast
  rw [show Text.byteLength above.chars = 19 by decide] at habove
  rw [show Text.byteLength below.chars = 20 by decide] at hbelow
  rw [show Text.byteLength power.chars = 3 by decide] at hpower
  exact ⟨hleast, habove, hbelow, _, hpower⟩

end TaskDialogue
