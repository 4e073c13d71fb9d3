import TaskDialogue.Proofs.Transcript.Lines

/-!
# Transcripts are read back

The text of a transcript is read as its turns, but for what the text does not show: a turn that the
application put in looks like any other program line, and an inserted recommendation is only shown
when it comes last. What is said may look like a line of another kind, since its speaker is
written before it.
-/
namespace TaskDialogue

open Text

/-- A text that stands on a line of its own. -/
structure IsLine (text : String) : Prop where
  trimmed : trim text.toList = text.toList
  single : '\n' ∉ text.toList

/-- A program line whose index is a machine word and whose expression stands on it. -/
structure ProgramTurn.IsLine (t : ProgramTurn) : Prop where
  index : t.index < indexBound
  nonempty : t.expression ≠ ""
  line : TaskDialogue.IsLine t.expression

namespace Turn

/-- A turn that is one line of a transcript. The marker would be left out from the end of a program
line. -/
def Printable (marker : List Char) : Turn → Prop
  | user query => IsLine query
  | agent response => IsLine response
  | program t => t.IsLine ∧ (marker ≠ [] → ¬marker <:+ t.expression.toList)
  | auto t | autoTransient t => t.IsLine

/-- The turn that the line of a turn is read as. -/
def asWritten : Turn → Turn
  | auto t | autoTransient t => program t
  | t => t

end Turn

theorem stripMarker_of_trimmed {marker cs : List Char} (h : Trimmed cs)
    (hend : marker ≠ [] → ¬marker <:+ cs) : stripMarker marker cs = cs := by
  have htrim := trimEnd_of_last h.last
  cases marker with
  | nil => exact htrim
  | cons c marker =>
    have hnone : dropSuffix? (c :: marker) cs = none := by
      refine Option.eq_none_iff_forall_ne_some.mpr fun rest hrest => ?_
      exact hend (List.cons_ne_nil c marker) ⟨rest, (dropSuffix?_eq_some_iff.mp hrest).symm⟩
    simp only [stripMarker, htrim, hnone]
    rfl

namespace Transcript

variable {marker : List Char}

theorem readsAs_program (hmarker : IsMarker marker) {t : ProgramTurn} (h : t.IsLine) :
    ReadsAs marker ((toString t.index).toList ++ ' ' :: t.expression.toList) (.program t) := by
  have hne : t.expression.toList ≠ [] := by simpa using h.nonempty
  have hread := readsAs_programText hmarker h.index (Trimmed.iff_trim_eq.mpr h.line.trimmed) hne
    h.line.single
  rw [String.ofList_toList] at hread
  rwa [render_program]

/-- The line of a turn is read back. -/
theorem readsAs_render (hmarker : IsMarker marker) {t : Turn} (h : t.Printable marker) :
    ReadsAs marker (t.render marker) t.asWritten := by
  cases t with
  | user query => exact readsAs_user hmarker (Trimmed.iff_trim_eq.mpr h.trimmed) h.single
  | agent response => exact readsAs_agent hmarker (Trimmed.iff_trim_eq.mpr h.trimmed) h.single
  | program t =>
    have hstrip := stripMarker_of_trimmed (Trimmed.iff_trim_eq.mpr h.1.line.trimmed) h.2
    rw [Turn.render, hstrip]
    exact readsAs_program hmarker h.1
  | auto t => exact readsAs_program hmarker h
  | autoTransient t => exact readsAs_program hmarker h

/-- The turns that are shown are those that are not transient, and the last one. -/
theorem shown_eq (turns : List Turn) :
    shown turns = turns.dropLast.filter (!·.isTransient) ++ turns.getLast?.toList := by
  induction turns with
  | nil => rfl
  | cons t rest ih =>
    cases rest with
    | nil => rfl
    | cons next rest =>
      rw [shown, ih, List.dropLast_cons_cons, List.filter_cons, List.getLast?_cons_cons]
      · cases h : t.isTransient <;> simp
      · simp

theorem mem_of_mem_shown {t : Turn} {turns : List Turn} (h : t ∈ shown turns) : t ∈ turns := by
  rw [shown_eq] at h
  obtain h | h := List.mem_append.mp h
  · exact List.dropLast_subset _ (List.mem_of_mem_filter h)
  · exact List.mem_of_getLast? (Option.mem_toList.mp h)

/-- The text of a transcript is read as the turns that it shows. -/
theorem parse_display (t : Transcript)
    (hmarker : t.followMarker = "" ∨ t.followMarker.toList.head? = some '#')
    (h : ∀ turn ∈ t.turns, turn.Printable t.followMarker.toList) :
    parse t.display t.followMarker =
      .ok ⟨(t.turns.dropLast.filter (!·.isTransient) ++ t.turns.getLast?.toList).map Turn.asWritten,
        t.followMarker⟩ := by
  have hmark : IsMarker t.followMarker.toList := by
    intro c hc
    obtain hnone | hhash := hmarker
    · simp [hnone] at hc
    · exact Option.some.inj (hc.symm.trans hhash)
  rw [← shown_eq, display]
  refine parse_of_readsAs (List.forall₂_map_left_iff.mpr (List.forall₂_map_right_iff.mpr ?_))
  exact List.forall₂_same.mpr fun turn hturn => readsAs_render hmark (h turn (mem_of_mem_shown hturn))

/-- A request that looks like a program line, a comment after an expression, a recommendation that
is not shown, an empty answer and a marker that the application put in. -/
def alarmCall : Transcript where
  turns :=
    [.user "0 create_alarm()", .program ⟨0, "create_alarm() # tomorrow"⟩,
      .autoTransient ⟨1, "hint(\"Ask for time\", ref=x0)"⟩, .agent "", .auto ⟨1, "perform(x0) #y"⟩]
  followMarker := "#y"

theorem printable_alarmCall : ∀ turn ∈ alarmCall.turns, turn.Printable alarmCall.followMarker.toList := by
  simp only [alarmCall, List.forall_mem_cons, List.not_mem_nil, false_imp_iff, implies_true, and_true]
  exact ⟨⟨by decide, by decide⟩, ⟨⟨by decide, by decide, ⟨by decide, by decide⟩⟩, by decide⟩,
    ⟨by decide, by decide, ⟨by decide, by decide⟩⟩, ⟨by decide, by decide⟩,
    ⟨by decide, by decide, ⟨by decide, by decide⟩⟩⟩

theorem parse_display_alarmCall :
    (∀ turn ∈ alarmCall.turns, turn.Printable alarmCall.followMarker.toList) ∧
    parse "user: 0 create_alarm()\n0 create_alarm() # tomorrow\nlucid: \n1 perform(x0) #y" "#y" =
      .ok ⟨[.user "0 create_alarm()", .program ⟨0, "create_alarm() # tomorrow"⟩, .agent "",
        .program ⟨1, "perform(x0) #y"⟩], "#y"⟩ :=
  ⟨printable_alarmCall, parse_display alarmCall (.inr rfl) printable_alarmCall⟩

end Transcript

end TaskDialogue
