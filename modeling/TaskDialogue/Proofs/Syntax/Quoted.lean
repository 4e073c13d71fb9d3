import Mathlib.Data.List.TakeWhile
import TaskDialogue.Syntax.Grammar
import TaskDialogue.Transcript.FollowUp

/-!
# Quoted text

A text that was escaped is read back from between double quotes. It may hold quotes and
backslashes, which are told apart from the quote that closes it. But a line end within it, of either
kind, ends the string before its quote.
-/
namespace TaskDialogue

open Syntax

@[simp] theorem escape_nil : escape [] = [] := rfl

theorem escape_cons (c : Char) (cs : List Char) : escape (c :: cs) = escapeChar c ++ escape cs := rfl

theorem unescape_escapeChar (c : Char) (cs : List Char) :
    unescape (escapeChar c ++ cs) = c :: unescape cs := by
  unfold escapeChar
  split
  · next h => simp [h, unescape, escaped]
  · split
    · next h => simp [h, unescape, escaped]
    · next h _ => simp [h, unescape]

@[simp] theorem unescape_escape (cs : List Char) : unescape (escape cs) = cs := by
  induction cs with
  | nil => rfl
  | cons c cs ih => rw [escape_cons, unescape_escapeChar, ih]

/-- Whether a character ends the line of a string. -/
def IsLineEnd (c : Char) : Prop := c = '\n' ∨ c = '\r'

instance (c : Char) : Decidable (IsLineEnd c) := inferInstanceAs (Decidable (c = '\n' ∨ c = '\r'))

theorem scanQuoted_escapeChar {c : Char} (hc : ¬IsLineEnd c) (cs : List Char) :
    scanQuoted '"' (escapeChar c ++ cs) =
      (escapeChar c ++ (scanQuoted '"' cs).1, (scanQuoted '"' cs).2) := by
  unfold escapeChar
  split
  · next h => simp [scanQuoted]
  · next hslash =>
    split
    · next h => simp [scanQuoted]
    · next hquote =>
      simp only [IsLineEnd, not_or] at hc
      simp [scanQuoted, hslash, hquote, hc]

/-- What was escaped does not end the string. -/
theorem scanQuoted_escape {text : List Char} (h : ∀ c ∈ text, ¬IsLineEnd c) (cs : List Char) :
    scanQuoted '"' (escape text ++ cs) =
      (escape text ++ (scanQuoted '"' cs).1, (scanQuoted '"' cs).2) := by
  induction text with
  | nil => simp [escape]
  | cons c text ih =>
    obtain ⟨hc, htext⟩ := List.forall_mem_cons.mp h
    rw [escape_cons, List.append_assoc, scanQuoted_escapeChar hc, ih htext]
    simp

theorem scanString_escape {text : List Char} (h : ∀ c ∈ text, ¬IsLineEnd c) (rest : List Char) :
    scanString ('"' :: (escape text ++ '"' :: rest)) = some ('"' :: (escape text ++ ['"']), rest) := by
  have hscan := scanQuoted_escape h ('"' :: rest)
  have hquote : scanQuoted '"' ('"' :: rest) = ([], '"' :: rest) := by simp [scanQuoted]
  rw [hquote] at hscan
  simp [scanString, hscan]

/-- A string whose line ends before its quote, or that has none, is not read. -/
theorem scanString_unclosed {text tail : List Char} (h : ∀ c ∈ text, ¬IsLineEnd c)
    (htail : ∀ c, tail.head? = some c → IsLineEnd c) : scanString ('"' :: (escape text ++ tail)) = none := by
  have hscan := scanQuoted_escape h tail
  have hend : scanQuoted '"' tail = ([], tail) := by
    cases tail with
    | nil => rfl
    | cons c rest =>
      obtain rfl | rfl := htail c rfl <;> simp [scanQuoted]
  rw [hend] at hscan
  cases tail with
  | nil =>
    rw [List.append_nil] at hscan ⊢
    simp [scanString, hscan]
  | cons c rest =>
    obtain rfl | rfl := htail c rfl <;> simp [scanString, hscan]

/-! ### The closing quote -/

/-- What may stand between double quotes: each quote in it has a backslash that takes it along, and
each backslash has a character to take. -/
inductive QuotedBody : List Char → Prop where
  | nil : QuotedBody []
  | plain {c : Char} {cs : List Char} (hslash : c ≠ '\\') (hquote : c ≠ '"') (rest : QuotedBody cs) :
    QuotedBody (c :: cs)
  | taken {c : Char} {cs : List Char} (rest : QuotedBody cs) : QuotedBody ('\\' :: c :: cs)

theorem QuotedBody.escapeChar {cs : List Char} (c : Char) (h : QuotedBody cs) :
    QuotedBody (escapeChar c ++ cs) := by
  unfold TaskDialogue.escapeChar
  split
  · exact h.taken
  · next hslash =>
    split
    · exact h.taken
    · next hquote => exact h.plain hslash hquote

theorem quotedBody_escape (text : List Char) : QuotedBody (escape text) := by
  induction text with
  | nil => exact .nil
  | cons c text ih => exact escape_cons c text ▸ ih.escapeChar c

/-- There is one quote only that can close a body. -/
theorem QuotedBody.unique {body other rest after : List Char} (h : QuotedBody body)
    (hother : QuotedBody other) (heq : body ++ '"' :: rest = other ++ '"' :: after) :
    body = other ∧ rest = after := by
  induction h generalizing other with
  | nil =>
    cases hother with
    | nil => exact ⟨rfl, (List.cons.inj heq).2⟩
    | plain _ hquote _ => exact absurd (List.cons.inj heq).1.symm hquote
    | taken _ => exact absurd (List.cons.inj heq).1 (by decide)
  | plain hslash hquote _ ih =>
    cases hother with
    | nil => exact absurd (List.cons.inj heq).1 hquote
    | plain _ _ hrest =>
      obtain ⟨rfl, hcs⟩ := List.cons.inj heq
      obtain ⟨rfl, rfl⟩ := ih hrest hcs
      exact ⟨rfl, rfl⟩
    | taken _ => exact absurd (List.cons.inj heq).1 hslash
  | taken _ ih =>
    cases hother with
    | nil => exact absurd (List.cons.inj heq).1 (by decide)
    | plain hslash _ _ => exact absurd (List.cons.inj heq).1.symm hslash
    | taken hrest =>
      obtain ⟨rfl, hcs⟩ := List.cons.inj (List.cons.inj heq).2
      obtain ⟨rfl, rfl⟩ := ih hrest hcs
      exact ⟨rfl, rfl⟩

/-- The text with a character replaced wherever it stands. -/
def replaceChar (old : Char) (new text : List Char) : List Char :=
  text.flatMap fun c => if c = old then new else [c]

/-- To escape a text is to replace its backslashes and then its quotes. In the other order the
backslashes before the quotes would be replaced too. -/
theorem escape_eq_replaceChar (text : List Char) :
    escape text = replaceChar '"' ['\\', '"'] (replaceChar '\\' ['\\', '\\'] text) := by
  rw [replaceChar, replaceChar, List.flatMap_assoc, escape]
  congr 1
  funext c
  by_cases hslash : c = '\\'
  · simp [escapeChar, hslash]
  · simp [escapeChar, hslash]

/-- What was escaped is read up to the first line end in the text, and up to the quote behind it if
there is none. -/
theorem scanQuoted_escape_quote (text rest : List Char) :
    scanQuoted '"' (escape text ++ '"' :: rest) =
      (escape (text.takeWhile (¬IsLineEnd ·)),
        escape (text.dropWhile (¬IsLineEnd ·)) ++ '"' :: rest) := by
  induction text with
  | nil => simp [scanQuoted]
  | cons c text ih =>
    by_cases hc : IsLineEnd c
    · have hescape : escapeChar c = [c] := by
        obtain rfl | rfl := hc <;> rfl
      have hstop : scanQuoted '"' (c :: (escape text ++ '"' :: rest)) =
          ([], c :: (escape text ++ '"' :: rest)) := by
        obtain rfl | rfl := hc <;> simp [scanQuoted]
      simp [hc, escape_cons, hescape, hstop]
    · rw [escape_cons, List.append_assoc, scanQuoted_escapeChar hc, ih]
      simp [hc, escape_cons]

/-- What was escaped stands in a string if no line ends within it. -/
theorem scanString_escape_quote (text rest : List Char) :
    scanString ('"' :: (escape text ++ '"' :: rest)) =
      if text.any (IsLineEnd ·) then none else some ('"' :: (escape text ++ ['"']), rest) := by
  split
  · next hcut =>
    have hscan := scanQuoted_escape_quote text rest
    cases hdrop : text.dropWhile (¬IsLineEnd ·) with
    | nil =>
      have hkept := List.dropWhile_eq_nil_iff.mp hdrop
      obtain ⟨c, hc, hline⟩ := List.any_eq_true.mp hcut
      exact absurd (of_decide_eq_true hline) (of_decide_eq_true (hkept c hc))
    | cons c later =>
      have hc : IsLineEnd c := by
        have hfirst := List.head?_dropWhile_not (¬IsLineEnd ·) text
        rw [hdrop] at hfirst
        simpa using hfirst
      rw [hdrop] at hscan
      obtain rfl | rfl := hc <;> simp [scanString, hscan, escape_cons, escapeChar]
  · next hlines =>
    exact scanString_escape (fun c hc hline => hlines (List.any_eq_true.mpr ⟨c, hc, by simpa⟩)) rest

/-- What was escaped is unescaped to the same text, whatever it is, and between double quotes it has one
end only, the quote that closes it. But a string ends with its line: it is read to this quote if no line
ends within the text, and otherwise it is read to the first line end, and is no string. -/
theorem escape_between_quotes (text rest : List Char) :
    unescape (escape text) = text ∧
      escape text = replaceChar '"' ['\\', '"'] (replaceChar '\\' ['\\', '\\'] text) ∧
      QuotedBody (escape text) ∧
      (∀ body after, QuotedBody body → escape text ++ '"' :: rest = body ++ '"' :: after →
        escape text = body ∧ rest = after) ∧
      scanQuoted '"' (escape text ++ '"' :: rest) =
        (escape (text.takeWhile (¬IsLineEnd ·)),
          escape (text.dropWhile (¬IsLineEnd ·)) ++ '"' :: rest) ∧
      scanString ('"' :: (escape text ++ '"' :: rest)) =
        if text.any (IsLineEnd ·) then none else some ('"' :: (escape text ++ ['"']), rest) := by
  have hbody := quotedBody_escape text
  exact ⟨unescape_escape text, escape_eq_replaceChar text, hbody, fun _ _ hother => hbody.unique hother,
    scanQuoted_escape_quote text rest, scanString_escape_quote text rest⟩

/-- A text with a line feed is escaped to itself, and is read no further than to the line feed. -/
theorem escape_lineFeed :
    let text := "swim\n".toList
    escape text = text ∧ scanQuoted '"' (escape text ++ ['"']) = ("swim".toList, ['\n', '"']) ∧
      ¬∀ text rest, scanString ('"' :: (escape text ++ '"' :: rest)) =
        some ('"' :: (escape text ++ ['"']), rest) := by
  refine ⟨by decide, by simp [escape, escapeChar, scanQuoted], fun h => ?_⟩
  have hread := h "swim\n".toList []
  simp [scanString, scanQuoted, escape, escapeChar] at hread

end TaskDialogue
