import TaskDialogue.Proofs.Transcript.Display

/-!
# Turns that were read

A turn that was read from lines is one that can stand on a line, but for the markers: every line with
the marker adds it to the program line above. Nothing is read as a turn that the application put in, so
all that was read is shown.
-/
namespace TaskDialogue

open Text

variable {marker cs : List Char}

/-- A text that is a line without blanks around it. -/
structure FillsLine (cs : List Char) : Prop where
  trimmed : Trimmed cs
  nonempty : cs ≠ []
  single : '\n' ∉ cs

/-- The expression of a program line with the markers of the lines below it. -/
inductive Marked (marker : List Char) : List Char → Prop
  | line {cs : List Char} (h : FillsLine cs) : Marked marker cs
  | mark {cs : List Char} (h : Marked marker cs) (hmark : FillsLine marker) :
    Marked marker (cs ++ '\n' :: marker)

namespace Marked

theorem nonempty (h : Marked marker cs) : cs ≠ [] := by
  cases h with
  | line h => exact h.nonempty
  | mark h hmark => simp

theorem trimmed (h : Marked marker cs) : Trimmed cs := by
  induction h with
  | line h => exact h.trimmed
  | mark h hmark ih => simpa using ih.append hmark.trimmed h.nonempty hmark.nonempty ['\n']

end Marked

/-- What a turn is like that was read from lines. -/
def Turn.AsRead (marker : List Char) : Turn → Prop
  | user query => IsLine query
  | agent response => IsLine response
  | program t => t.index < indexBound ∧ Marked marker t.expression.toList
  | auto _ | autoTransient _ => False

namespace Transcript

variable {line : List Char} {number : Nat} {turns turns' : List Turn}

theorem isLine_trim (h : '\n' ∉ cs) : IsLine (String.ofList (trim cs)) := by
  refine ⟨?_, ?_⟩
  · rw [String.toList_ofList, (Trimmed.trim cs).trim_eq]
  · rw [String.toList_ofList]
    exact fun hmem => h (mem_of_mem_trim hmem)

theorem splitAtBlank?_eq_some {word rest : List Char} (h : splitAtBlank? line = some (word, rest)) :
    ∃ c, isBlank c = true ∧ line = word ++ c :: rest := by
  rw [splitAtBlank?, List.span_eq_takeWhile_dropWhile] at h
  split at h
  · cases h
  · next c rest' hspan =>
    obtain ⟨hword, hdrop⟩ := Prod.mk.inj hspan
    obtain ⟨rfl, rfl⟩ := Prod.mk.inj (Option.some.inj h)
    have hfirst := List.head?_dropWhile_not (!isBlank ·) line
    rw [hdrop] at hfirst
    exact ⟨c, by simpa using hfirst, by rw [← hword, ← hdrop, List.takeWhile_append_dropWhile]⟩

/-- A program line ends with an expression, since no blanks stand at its end. -/
theorem fillsLine_programLine? {t : ProgramTurn} (htrim : Trimmed line) (hline : '\n' ∉ line)
    (h : programLine? line = some t) : t.index < indexBound ∧ FillsLine t.expression.toList := by
  simp only [programLine?, bind, Option.bind_eq_some_iff, pure, Option.some.injEq] at h
  obtain ⟨⟨word, rest⟩, hsplit, index, hindex, rfl⟩ := h
  obtain ⟨c, hc, rfl⟩ := splitAtBlank?_eq_some hsplit
  have hbound : index < indexBound := by
    unfold readIndex? at hindex
    simpa using (Option.filter_eq_some_iff.mp hindex).2
  have hrest : '\n' ∉ rest := fun hmem => hline (by simp [hmem])
  have hexpression := isLine_trim hrest
  refine ⟨hbound, Trimmed.iff_trim_eq.mpr hexpression.trimmed, fun hempty => ?_, hexpression.single⟩
  rw [String.toList_ofList] at hempty
  have hblanks : ∀ d ∈ c :: rest, isBlank d = true :=
    List.forall_mem_cons.mpr ⟨hc, isBlank_of_trim_eq_nil hempty⟩
  obtain ⟨d, hd⟩ : ∃ d, (c :: rest).getLast? = some d :=
    Option.ne_none_iff_exists'.mp (mt List.getLast?_eq_none_iff.mp (List.cons_ne_nil c rest))
  have hlast := htrim.last d (by rw [List.getLast?_append_of_ne_nil _ (List.cons_ne_nil c rest), hd])
  rw [hblanks d (List.mem_of_getLast? hd)] at hlast
  cases hlast

/-- A line that stands for a turn is what was said, or a program line. -/
theorem ofChars_turn_cases {t : Turn} (h : Line.ofChars marker line = .turn t) :
    (∃ rest, dropPrefix? Turn.userMark line = some rest ∧ t = .user (String.ofList (trim rest))) ∨
      (∃ rest, dropPrefix? Turn.agentMark line = some rest ∧
        t = .agent (String.ofList (trim rest))) ∨
      ∃ p, programLine? line = some p ∧ t = .program p := by
  unfold Line.ofChars at h
  split at h
  · cases h
  split at h
  · cases h
  split at h
  · next rest hrest => exact .inl ⟨rest, hrest, (Line.turn.inj h).symm⟩
  split at h
  · next rest hrest => exact .inr (.inl ⟨rest, hrest, (Line.turn.inj h).symm⟩)
  split at h
  · next p hprogram => exact .inr (.inr ⟨p, hprogram, (Line.turn.inj h).symm⟩)
  · split at h <;> cases h

/-- What the lines of a text stand for. -/
theorem asRead_ofChars {t : Turn} (htrim : Trimmed line) (hline : '\n' ∉ line)
    (h : Line.ofChars marker line = .turn t) : t.AsRead marker := by
  obtain ⟨rest, hrest, rfl⟩ | ⟨rest, hrest, rfl⟩ | ⟨p, hprogram, rfl⟩ := ofChars_turn_cases h
  · rw [dropPrefix?_eq_some_iff] at hrest
    exact isLine_trim fun hmem => hline (by simp [hrest, hmem])
  · rw [dropPrefix?_eq_some_iff] at hrest
    exact isLine_trim fun hmem => hline (by simp [hrest, hmem])
  · obtain ⟨hindex, hexpression⟩ := fillsLine_programLine? htrim hline hprogram
    exact ⟨hindex, .line hexpression⟩

theorem ofChars_eq_marker (h : Line.ofChars marker line = .marker) : line = marker ∧ line ≠ [] := by
  unfold Line.ofChars at h
  split at h
  · cases h
  · next hne =>
    split at h
    · next hmark => exact ⟨hmark, by simpa using hne⟩
    · split at h
      · cases h
      · split at h
        · cases h
        · split at h
          · cases h
          · split at h <;> cases h

theorem asRead_markLast (hmark : FillsLine marker) (h : markLast marker turns = some turns')
    (hturns : ∀ t ∈ turns, t.AsRead marker) : ∀ t ∈ turns', t.AsRead marker := by
  unfold markLast at h
  split at h
  · next p hlast =>
    obtain rfl := Option.some.inj h
    obtain ⟨hindex, hmarked⟩ := hturns _ (List.mem_of_getLast? hlast)
    intro t ht
    obtain ht | ht := List.mem_append.mp ht
    · exact hturns t (List.dropLast_subset _ ht)
    · obtain rfl := List.mem_singleton.mp ht
      refine ⟨hindex, ?_⟩
      rw [String.toList_ofList]
      exact .mark hmarked hmark
  · cases h

theorem asRead_readLines {lines : List (List Char)} (hlines : ∀ line ∈ lines, '\n' ∉ line)
    (hturns : ∀ t ∈ turns, t.AsRead marker) (h : readLines marker number lines turns = .ok turns') :
    ∀ t ∈ turns', t.AsRead marker := by
  induction lines generalizing number turns with
  | nil =>
    obtain rfl := Except.ok.inj h
    exact hturns
  | cons line rest ih =>
    obtain ⟨hline, hrest⟩ := List.forall_mem_cons.mp hlines
    have hsingle : '\n' ∉ trim line := fun hmem => hline (mem_of_mem_trim hmem)
    rw [readLines] at h
    split at h
    · exact ih hrest hturns h
    · next t hturn =>
      refine ih hrest (List.forall_mem_append.mpr ⟨hturns, ?_⟩) h
      simpa using asRead_ofChars (Trimmed.trim line) hsingle hturn
    · next hmarker =>
      obtain ⟨heq, hne⟩ := ofChars_eq_marker hmarker
      have hmark : FillsLine marker := heq ▸ ⟨Trimmed.trim line, hne, hsingle⟩
      split at h
      · next turns'' hlast => exact ih hrest (asRead_markLast hmark hlast hturns) h
      · cases h
    · cases h

theorem asRead_parse {text marker : String} {t : Transcript} (h : parse text marker = .ok t) :
    t.followMarker = marker ∧ ∀ turn ∈ t.turns, turn.AsRead marker.toList := by
  unfold parse at h
  cases hread : readLines marker.toList 1 (lines text.toList) [] with
  | error e => simp [hread, Except.map] at h
  | ok turns =>
    rw [hread] at h
    obtain rfl := Except.ok.inj h
    exact ⟨rfl, asRead_readLines (fun _ => not_mem_lines) (by simp) hread⟩

/-! ### Showing what was read -/

theorem shown_of_asRead (h : ∀ t ∈ turns, t.AsRead marker) : shown turns = turns := by
  have hkept : ∀ t ∈ turns.dropLast, (!t.isTransient) = true := by
    intro t ht
    have hread := h t (List.dropLast_subset _ ht)
    cases t <;> first | rfl | exact hread.elim
  rw [shown_eq, List.filter_eq_self.mpr hkept]
  cases turns using List.reverseRecOn with
  | nil => rfl
  | append_singleton init t => simp


section

variable {t : Transcript}

theorem mem_programTurns (hread : ∀ turn ∈ t.turns, turn.AsRead marker) (line : ProgramTurn) :
    line ∈ t.programTurns ↔ .program line ∈ t.turns := by
  rw [programTurns, List.mem_filterMap]
  constructor
  · rintro ⟨turn, hturn, hline⟩
    cases turn with
    | program line' =>
      obtain rfl := Option.some.inj hline
      exact hturn
    | auto line' => exact (hread _ hturn).elim
    | autoTransient line' => exact (hread _ hturn).elim
    | user query => cases hline
    | agent response => cases hline
  · exact fun hturn => ⟨_, hturn, rfl⟩

theorem display_of_asRead (hread : ∀ turn ∈ t.turns, turn.AsRead marker) :
    t.display =
      String.ofList (['\n'].intercalate (t.turns.map (Turn.render t.followMarker.toList))) := by
  rw [display, shown_of_asRead hread]

end

end Transcript

end TaskDialogue
