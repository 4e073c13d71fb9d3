import Mathlib.Data.List.Forall2
import Mathlib.Data.List.TakeDrop
import TaskDialogue.Proofs.Transcript.Trim
import TaskDialogue.Transcript.Text

/-!
# The lines of a turn

The text of a turn is read as that turn when its lines, between any other lines, add it to the turns
that were read before. A transcript is then read from the texts of its turns one by one. No line of
a turn is taken for the marker or for a comment, since a marker starts with a hash sign.
-/
namespace TaskDialogue

open Text

/-- A marker that is empty or starts like a comment. -/
def IsMarker (marker : List Char) : Prop := ∀ c, marker.head? = some c → c = '#'

namespace Transcript

variable {marker line text cs : List Char} {t : Turn}

/-- The lines of a text add a turn, whatever comes before and after them. -/
def ReadsAs (marker text : List Char) (t : Turn) : Prop :=
  ∀ number rest turns, ∃ number', readLines marker number (text.splitOn '\n' ++ rest) turns =
    readLines marker number' rest (turns ++ [t])

/-- The lines of a text are refused, whatever comes before and after them. -/
def Refused (marker text : List Char) : Prop :=
  ∀ number rest turns, ∃ error, readLines marker number (text.splitOn '\n' ++ rest) turns = .error error

theorem ReadsAs.of_line (h : '\n' ∉ text) (hline : Line.ofChars marker (trim text) = .turn t) :
    ReadsAs marker text t := by
  intro number rest turns
  refine ⟨number + 1, ?_⟩
  rw [List.splitOn_eq_singleton h, List.singleton_append, readLines]
  simp only [hline]

theorem Refused.of_line (h : '\n' ∉ text) (hline : Line.ofChars marker (trim text) = .invalid) :
    Refused marker text := by
  intro number rest turns
  refine ⟨.invalidLine number (String.ofList (trim text)), ?_⟩
  rw [List.splitOn_eq_singleton h, List.singleton_append, readLines]
  simp only [hline]

/-! ### What is said -/

/-- What follows the mark of a speaker is what was said. -/
theorem trim_said (mark : List Char) {said : List Char} (hmark : Trimmed mark) (hne : mark ≠ [])
    (h : Trimmed said) :
    ∃ rest, trim (mark ++ ' ' :: said) = mark ++ rest ∧ trim rest = said := by
  cases said with
  | nil =>
    refine ⟨[], ?_, rfl⟩
    have hend : trimEnd (mark ++ [' ']) = mark := by
      rw [trimEnd_append (List.forall_mem_singleton.mpr rfl), trimEnd_of_last hmark.last]
    have hstart : trimStart (mark ++ [' ']) = mark ++ [' '] := by
      obtain ⟨c, cs, rfl⟩ := List.exists_cons_of_ne_nil hne
      exact trimStart_of_first (by simpa using hmark.first)
    rw [trim, hstart, hend, List.append_nil]
  | cons c cs =>
    have hline := hmark.append h hne (List.cons_ne_nil c cs) [' ']
    refine ⟨' ' :: c :: cs, ?_, ?_⟩
    · rw [List.append_assoc] at hline
      exact hline.trim_eq
    · rw [trim, show trimStart (' ' :: c :: cs) = trimStart (c :: cs) from
        List.dropWhile_cons_of_pos rfl]
      exact h.trim_eq

theorem not_mem_said (mark : List Char) {said : List Char} (hmark : '\n' ∉ mark) (h : '\n' ∉ said) :
    '\n' ∉ mark ++ ' ' :: said := by
  simp [hmark, h]

theorem ne_marker (hmarker : IsMarker marker) {c : Char} (hc : c ≠ '#') : c :: cs ≠ marker :=
  fun h => hc (hmarker c (h ▸ rfl))

theorem ofChars_user (hmarker : IsMarker marker) (rest : List Char) :
    Line.ofChars marker (Turn.userMark ++ rest) = .turn (.user (String.ofList (trim rest))) := by
  have hne : Turn.userMark ++ rest ≠ marker := ne_marker hmarker (by decide)
  unfold Line.ofChars
  rw [if_neg hne, dropPrefix?_append]
  rfl

theorem ofChars_agent (hmarker : IsMarker marker) (rest : List Char) :
    Line.ofChars marker (Turn.agentMark ++ rest) = .turn (.agent (String.ofList (trim rest))) := by
  have hne : Turn.agentMark ++ rest ≠ marker := ne_marker hmarker (by decide)
  have huser : dropPrefix? Turn.userMark (Turn.agentMark ++ rest) = none := rfl
  unfold Line.ofChars
  rw [if_neg hne, huser, dropPrefix?_append]
  rfl

theorem readsAs_user (hmarker : IsMarker marker) {query : String} (h : Trimmed query.toList)
    (hline : '\n' ∉ query.toList) : ReadsAs marker ((Turn.user query).render marker) (.user query) := by
  obtain ⟨rest, htrim, hquery⟩ :=
    trim_said Turn.userMark (Trimmed.iff_trim_eq.mpr (by decide)) (by decide) h
  refine .of_line (not_mem_said Turn.userMark (by decide) hline) ?_
  rw [Turn.render, htrim, ofChars_user hmarker, hquery, String.ofList_toList]

theorem readsAs_agent (hmarker : IsMarker marker) {response : String} (h : Trimmed response.toList)
    (hline : '\n' ∉ response.toList) :
    ReadsAs marker ((Turn.agent response).render marker) (.agent response) := by
  obtain ⟨rest, htrim, hquery⟩ :=
    trim_said Turn.agentMark (Trimmed.iff_trim_eq.mpr (by decide)) (by decide) h
  refine .of_line (not_mem_said Turn.agentMark (by decide) hline) ?_
  rw [Turn.render, htrim, ofChars_agent hmarker, hquery, String.ofList_toList]

/-! ### Program lines -/

theorem isBlank_of_isDigit {c : Char} (h : c.isDigit = true) : isBlank c = false := by
  have hbounds : 48 ≤ c.toNat ∧ c.toNat ≤ 57 := Char.isDigit_iff_toNat.mp h
  simp only [isBlank, Bool.or_eq_false_iff, Bool.and_eq_false_iff, decide_eq_false_iff_not,
    beq_eq_false_iff_ne]
  omega

/-- The text of a program line. -/
def programText (index : Nat) (expression : List Char) : List Char :=
  Nat.toDigits 10 index ++ ' ' :: expression

theorem render_program (index : Nat) (expression : String) :
    (toString index).toList ++ ' ' :: expression.toList = programText index expression.toList := by
  simp [programText, Nat.repr]

theorem isDigit_of_mem_index {n : Nat} {c : Char} (h : c ∈ Nat.toDigits 10 n) : c.isDigit = true :=
  Nat.isDigit_of_mem_toDigits (by decide) (by decide) h

theorem trimmed_index (n : Nat) : Trimmed (Nat.toDigits 10 n) where
  first _ hc := isBlank_of_isDigit (isDigit_of_mem_index (List.mem_of_head? hc))
  last _ hc := isBlank_of_isDigit (isDigit_of_mem_index (List.mem_of_getLast? hc))

theorem splitAtBlank?_programText (n : Nat) (rest : List Char) :
    splitAtBlank? (programText n rest) = some (Nat.toDigits 10 n, rest) := by
  have hall : ∀ c ∈ Nat.toDigits 10 n, (!isBlank c) = true := fun c hc => by
    simp [isBlank_of_isDigit (isDigit_of_mem_index hc)]
  simp only [splitAtBlank?, programText, List.span_eq_takeWhile_dropWhile]
  rw [List.takeWhile_append_of_pos hall, List.dropWhile_append_of_pos hall]
  simp [show isBlank ' ' = true from rfl]

/-- A line that starts with a digit is a program line or nothing. -/
theorem ofChars_digit (hmarker : IsMarker marker) {c : Char} (hc : c.isDigit = true) :
    Line.ofChars marker (c :: cs) = (programLine? (c :: cs)).elim .invalid (.turn ∘ .program) := by
  have hhash : c ≠ '#' := by
    rintro rfl
    exact absurd hc (by decide)
  have huser : dropPrefix? Turn.userMark (c :: cs) = none := by
    have hne : 'u' ≠ c := by
      rintro rfl
      exact absurd hc (by decide)
    exact if_neg hne
  have hagent : dropPrefix? Turn.agentMark (c :: cs) = none := by
    have hne : 'l' ≠ c := by
      rintro rfl
      exact absurd hc (by decide)
    exact if_neg hne
  unfold Line.ofChars
  rw [if_neg (ne_marker hmarker hhash), huser, hagent]
  cases programLine? (c :: cs) with
  | none => simp [hhash]
  | some t => rfl

theorem ofChars_programText (hmarker : IsMarker marker) {index : Nat} (hindex : index < indexBound)
    (h : Trimmed cs) :
    Line.ofChars marker (programText index cs) = .turn (.program ⟨index, String.ofList cs⟩) := by
  have hprogram : programLine? (programText index cs) = some ⟨index, String.ofList cs⟩ := by
    rw [programLine?, splitAtBlank?_programText]
    simp [readIndex?_toDigits hindex, h.trim_eq]
  obtain ⟨c, digits, hcons⟩ := List.exists_cons_of_ne_nil (Nat.toDigits_ne_nil (b := 10) (n := index))
  have hc : c.isDigit = true := isDigit_of_mem_index (hcons ▸ List.mem_cons_self)
  have htext : programText index cs = c :: (digits ++ ' ' :: cs) := by
    rw [programText, hcons, List.cons_append]
  rw [htext, ofChars_digit hmarker hc, ← htext, hprogram]
  rfl

theorem not_mem_programText {index : Nat} (h : '\n' ∉ cs) : '\n' ∉ programText index cs := by
  have hdigits : '\n' ∉ Nat.toDigits 10 index := fun hmem =>
    absurd (isDigit_of_mem_index hmem) (by decide)
  simp [programText, hdigits, h]

/-- A program line of one line. -/
theorem readsAs_programText (hmarker : IsMarker marker) {index : Nat} (hindex : index < indexBound)
    (h : Trimmed cs) (hne : cs ≠ []) (hline : '\n' ∉ cs) :
    ReadsAs marker (programText index cs) (.program ⟨index, String.ofList cs⟩) := by
  have htrim : Trimmed (programText index cs) := by
    simpa [programText] using (trimmed_index index).append h Nat.toDigits_ne_nil hne [' ']
  refine .of_line (not_mem_programText hline) ?_
  rw [htrim.trim_eq, ofChars_programText hmarker hindex h]

/-- A line with an index alone is no program line. -/
theorem refused_programText (hmarker : IsMarker marker) (index : Nat) :
    Refused marker (programText index []) := by
  have htrim : trim (programText index []) = Nat.toDigits 10 index := by
    have hfirst : ∀ c, (programText index []).head? = some c → isBlank c = false := by
      obtain ⟨c, digits, hcons⟩ :=
        List.exists_cons_of_ne_nil (Nat.toDigits_ne_nil (b := 10) (n := index))
      have htrimmed := trimmed_index index
      rw [hcons] at htrimmed
      simpa [programText, hcons] using htrimmed.first
    rw [trim, trimStart_of_first hfirst, programText,
      trimEnd_append (List.forall_mem_singleton.mpr rfl), trimEnd_of_last (trimmed_index index).last]
  refine .of_line (not_mem_programText List.not_mem_nil) ?_
  have hall : ∀ c ∈ Nat.toDigits 10 index, (!isBlank c) = true := fun c hc => by
    simp [isBlank_of_isDigit (isDigit_of_mem_index hc)]
  have hdrop : (Nat.toDigits 10 index).dropWhile (! isBlank ·) = [] :=
    List.dropWhile_eq_nil_iff.mpr hall
  have hprogram : programLine? (Nat.toDigits 10 index) = none := by
    simp [programLine?, splitAtBlank?, List.span_eq_takeWhile_dropWhile, hdrop]
  rw [htrim]
  obtain ⟨c, digits, hcons⟩ := List.exists_cons_of_ne_nil (Nat.toDigits_ne_nil (b := 10) (n := index))
  have hc : c.isDigit = true := isDigit_of_mem_index (hcons ▸ List.mem_cons_self)
  rw [hcons] at hprogram ⊢
  rw [ofChars_digit hmarker hc, hprogram]
  rfl

/-- A line with the marker adds it to the program line above. -/
theorem ReadsAs.mark {t : ProgramTurn} (h : ReadsAs marker text (.program t)) (htrim : Trimmed marker)
    (hne : marker ≠ []) (hline : '\n' ∉ marker) :
    ReadsAs marker (text ++ '\n' :: marker) (.program { t with
      expression := String.ofList (t.expression.toList ++ '\n' :: marker) }) := by
  intro number rest turns
  obtain ⟨number', hread⟩ := h number (marker :: rest) turns
  refine ⟨number' + 1, ?_⟩
  rw [List.splitOn_append_cons_self, List.splitOn_eq_singleton hline, List.append_assoc,
    List.singleton_append, hread, readLines]
  have hmarker : Line.ofChars marker marker = .marker := by
    simp [Line.ofChars, hne]
  simp only [htrim.trim_eq, hmarker]
  simp [markLast]

/-! ### Transcripts -/

/-- An empty line says nothing. -/
theorem readLines_append_nil (marker : List Char) (number : Nat) (lines : List (List Char))
    (turns : List Turn) :
    readLines marker number (lines ++ [[]]) turns = readLines marker number lines turns := by
  induction lines generalizing number turns with
  | nil => simp [readLines, Line.ofChars]
  | cons line rest ih => simp only [List.cons_append, readLines, ih]

/-- It does not matter whether a line feed ends the last line. -/
theorem readLines_lines (marker : List Char) (number : Nat) (cs : List Char) (turns : List Turn) :
    readLines marker number (lines cs) turns = readLines marker number (cs.splitOn '\n') turns := by
  unfold lines
  dsimp only
  split
  · next hlast =>
    obtain ⟨init, hinit⟩ := List.getLast?_eq_some_iff.mp hlast
    rw [hinit, List.dropLast_concat, readLines_append_nil]
  · rfl

theorem readLines_intercalate (marker : List Char) (number : Nat) (texts : List (List Char))
    (turns : List Turn) :
    readLines marker number (lines (['\n'].intercalate texts)) turns =
      readLines marker number (texts.flatMap (·.splitOn '\n')) turns := by
  rw [readLines_lines]
  by_cases hne : texts = []
  · rw [hne]
    exact readLines_append_nil marker number [] turns
  · rw [splitOn_intercalate_flatMap hne]

theorem readLines_flatMap {texts : List (List Char)} {turns : List Turn}
    (h : List.Forall₂ (ReadsAs marker) texts turns) (number : Nat) (before : List Turn) :
    readLines marker number (texts.flatMap (·.splitOn '\n')) before = .ok (before ++ turns) := by
  induction h generalizing number before with
  | nil => simp [readLines]
  | cons hfirst _ ih =>
    rw [List.flatMap_cons]
    obtain ⟨number', hread⟩ := hfirst number _ before
    rw [hread, ih, List.append_assoc, List.singleton_append]

/-- A transcript is read from the texts of its turns. -/
theorem parse_of_readsAs {marker : String} {texts : List (List Char)} {turns : List Turn}
    (h : List.Forall₂ (ReadsAs marker.toList) texts turns) :
    parse (String.ofList (['\n'].intercalate texts)) marker = .ok ⟨turns, marker⟩ := by
  rw [parse, String.toList_ofList, readLines_intercalate, readLines_flatMap h]
  rfl

/-- A transcript is refused for one of its texts. -/
theorem parse_of_refused {marker : String} {texts : List (List Char)}
    (h : ∀ text ∈ texts, (∃ t, ReadsAs marker.toList text t) ∨ Refused marker.toList text)
    (hrefused : ∃ text ∈ texts, Refused marker.toList text) :
    ∃ error, parse (String.ofList (['\n'].intercalate texts)) marker = .error error := by
  suffices hread : ∀ number before, ∃ error, readLines marker.toList number
      (texts.flatMap (·.splitOn '\n')) before = .error error by
    obtain ⟨error, herror⟩ := hread 1 []
    exact ⟨error, by rw [parse, String.toList_ofList, readLines_intercalate, herror]; rfl⟩
  induction texts with
  | nil => simp at hrefused
  | cons text texts ih =>
    intro number before
    rw [List.flatMap_cons]
    obtain ⟨hfirst, hrest⟩ := List.forall_mem_cons.mp h
    obtain ⟨t, ht⟩ | hfirst := hfirst
    · obtain ⟨number', hread⟩ := ht number (texts.flatMap (·.splitOn '\n')) before
      rw [hread]
      refine ih hrest ?_ number' _
      obtain ⟨text', hmem, htext⟩ := hrefused
      obtain rfl | hmem := List.mem_cons.mp hmem
      · obtain ⟨error, herror⟩ := htext number [] before
        obtain ⟨number'', hread'⟩ := ht number [] before
        rw [hread', readLines] at herror
        cases herror
      · exact ⟨text', hmem, htext⟩
    · exact hfirst number _ before

end Transcript

end TaskDialogue
