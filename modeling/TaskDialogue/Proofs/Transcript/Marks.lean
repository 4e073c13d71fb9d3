import TaskDialogue.Proofs.Syntax.Blanks
import TaskDialogue.Proofs.Syntax.FollowMarker
import TaskDialogue.Proofs.Transcript.Parsed

/-!
# Reading again what was printed

Every line with the marker adds it to the program line above, and one marker is left out from the
end of a program line that is printed. The two undo each other when an expression has one marker at
most and what stands before it still has a run for an expression. Otherwise a marker stays, or the
expression gets lost with it.
-/
namespace TaskDialogue

open Text Syntax

variable {marker cs ds blanks run : List Char}

/-- What the expression of a program line says, whether it is followed or not. -/
def Means (marker expression : List Char) (p : Program) : Prop :=
  ∃ run followed q, splitFollowMarker? marker expression = some (run, followed) ∧
    Program.parse (String.ofList run) = .ok q ∧ q.erase = p.erase

/-- The line of the same turn, read again. What it says stays as it is, and it is not followed. -/
structure ProgramTurn.Unmarked (marker : List Char) (t t' : ProgramTurn) : Prop where
  index : t'.index = t.index
  meaning : ∀ p, Means marker t.expression.toList p → Means marker t'.expression.toList p
  unfollowed : ∀ run, splitFollowMarker? marker t'.expression.toList ≠ some (run, true)

/-- The same turn, read again from a text without markers. -/
inductive Turn.Unmarked (marker : List Char) : Turn → Turn → Prop
  | user (query : String) : Unmarked marker (.user query) (.user query)
  | agent (response : String) : Unmarked marker (.agent response) (.agent response)
  | program {t t' : ProgramTurn} (line : t.Unmarked marker t') :
    Unmarked marker (.program t) (.program t')

/-- What is printed of a transcript is read as its turns without their markers. -/
def Transcript.Rereads (t : Transcript) : Prop :=
  ∃ turns, parse t.display t.followMarker = .ok ⟨turns, t.followMarker⟩ ∧
    List.Forall₂ (Turn.Unmarked t.followMarker.toList) t.turns turns

/-- A program line from which the marker can be left out: what is left is not empty and not followed,
and it has a run if the whole expression means anything. -/
structure ProgramTurn.Strips (marker : List Char) (t : ProgramTurn) : Prop where
  nonempty : stripMarker marker t.expression.toList ≠ []
  unfollowed : ∀ run,
    splitFollowMarker? marker (stripMarker marker t.expression.toList) ≠ some (run, true)
  expression : (∃ p, Means marker t.expression.toList p) →
    (splitFollowMarker? marker (stripMarker marker t.expression.toList)).isSome

/-! ### The run of an expression -/

theorem run_of_splitFollowMarker? {followed : Bool}
    (h : splitFollowMarker? marker cs = some (run, followed)) :
    cs.dropWhile endsExpression ≠ [] ∧
      run = (cs.dropWhile endsExpression).takeWhile (!endsExpression ·) := by
  unfold splitFollowMarker? at h
  dsimp only at h
  split at h
  · cases h
  · next hempty =>
    obtain ⟨rfl, -⟩ := Prod.mk.inj (Option.some.inj h)
    exact ⟨by simpa using hempty, rfl⟩

/-- The blanks before a marker are the only ones that the run has when the marker is left out. -/
theorem padded_run (hmarker : IsMarker marker) (hblanks : ∀ c ∈ blanks, isBlank c = true)
    (h : cs.dropWhile endsExpression ≠ []) :
    Padded ((cs.dropWhile endsExpression).takeWhile (!endsExpression ·))
      (((cs ++ (blanks ++ marker)).dropWhile endsExpression).takeWhile (!endsExpression ·)) := by
  rw [List.dropWhile_append, if_neg (by simpa using h), List.takeWhile_append]
  split
  · next hall =>
    have hmark : marker.takeWhile (!endsExpression ·) = [] := by
      cases marker with
      | nil => rfl
      | cons c marker =>
        obtain rfl := hmarker c rfl
        rfl
    have hsub : (blanks ++ marker).takeWhile (!endsExpression ·) ⊆ blanks := by
      rw [List.takeWhile_append]
      split
      · simp [hmark]
      · exact (List.takeWhile_sublist _).subset
    rw [(List.takeWhile_prefix _).eq_of_length hall]
    refine ⟨_, fun c hc => ⟨hblanks c (hsub hc), ?_⟩, rfl⟩
    rintro rfl
    exact absurd (List.mem_takeWhile_imp hc) (by decide)
  · exact .self _

/-! ### The marker at the end -/

theorem last_stripMarker (marker cs : List Char) :
    ∀ c, (stripMarker marker cs).getLast? = some c → isBlank c = false := by
  unfold stripMarker
  dsimp only
  split
  · exact last_trimEnd cs
  · split
    · exact last_trimEnd _
    · exact last_trimEnd cs

theorem stripMarker_append (hne : marker ≠ [])
    (hlast : ∀ c, marker.getLast? = some c → isBlank c = false) :
    stripMarker marker (cs ++ marker) = trimEnd cs := by
  have htrim : trimEnd (cs ++ marker) = cs ++ marker := by
    refine trimEnd_of_last ?_
    rwa [List.getLast?_append_of_ne_nil _ hne]
  simp only [stripMarker, htrim, dropSuffix?_eq_some_iff.mpr rfl, List.isEmpty_iff, if_neg hne]

/-- The marker is left out with the blanks before it, or there is none. -/
theorem stripMarker_cases (marker : List Char) (h : Trimmed cs) :
    stripMarker marker cs = cs ∨ ∃ blanks, (∀ c ∈ blanks, isBlank c = true) ∧
      cs = stripMarker marker cs ++ (blanks ++ marker) := by
  by_cases hend : marker ≠ [] → ¬marker <:+ cs
  · exact .inl (stripMarker_of_trimmed h hend)
  · obtain ⟨hne, front, rfl⟩ : marker ≠ [] ∧ marker <:+ cs := by simpa using hend
    have hlast := h.last
    rw [List.getLast?_append_of_ne_nil _ hne] at hlast
    obtain ⟨blanks, hfront, hblanks⟩ := trimEnd_append_blanks front
    refine .inr ⟨blanks, hblanks, ?_⟩
    rw [stripMarker_append hne hlast, ← List.append_assoc, ← hfront]

theorem stripMarker_prefix (marker : List Char) (h : Trimmed cs) : stripMarker marker cs <+: cs := by
  obtain hsame | ⟨blanks, -, hcs⟩ := stripMarker_cases marker h
  · exact ⟨[], by rw [hsame, List.append_nil]⟩
  · exact ⟨_, hcs.symm⟩

/-- Without the marker the expression says the same, unless it has no run then. -/
theorem Means.stripMarker {p : Program} (hmarker : IsMarker marker) (h : Trimmed cs)
    (hmeans : Means marker cs p) (hsome : (splitFollowMarker? marker (stripMarker marker cs)).isSome) :
    Means marker (stripMarker marker cs) p := by
  obtain hsame | ⟨blanks, hblanks, hcs⟩ := stripMarker_cases marker h
  · rwa [hsame]
  · obtain ⟨run, followed, q, hsplit, hparse, hq⟩ := hmeans
    obtain ⟨⟨run', followed'⟩, hsplit'⟩ := Option.isSome_iff_exists.mp hsome
    obtain ⟨hne, hrun'⟩ := run_of_splitFollowMarker? hsplit'
    obtain ⟨-, hrun⟩ := run_of_splitFollowMarker? hsplit
    have hpadded := padded_run hmarker hblanks hne
    rw [← hcs, ← hrun, ← hrun'] at hpadded
    obtain ⟨q', hparse', hq'⟩ := Program.parse_of_padded hpadded hparse
    exact ⟨run', followed', q', hsplit', hparse', hq'.trans hq⟩

/-- The marker can be left out where it stands but once, after an expression without hash signs. -/
theorem ProgramTurn.strips_of_unhashed (cs blanks : List Char) {t : ProgramTurn}
    (hmarker : marker.head? = some '#') (hend : Trimmed marker) (htrim : Trimmed cs) (hne : cs ≠ [])
    (hunhashed : '#' ∉ cs) (hline : '\n' ∉ cs) (hblanks : ∀ c ∈ blanks, isBlank c = true)
    (h : t.expression.toList = cs ∨ t.expression.toList = cs ++ blanks ++ marker) :
    t.Strips marker := by
  have hmark : marker ≠ [] := by
    rintro rfl
    cases hmarker
  have hstrip : stripMarker marker t.expression.toList = cs := by
    obtain h | h := h
    · rw [h]
      exact stripMarker_of_trimmed htrim fun _ hsuffix =>
        hunhashed (hsuffix.subset (List.mem_of_head? hmarker))
    · rw [h, stripMarker_append hmark hend.last, trimEnd_append hblanks, trimEnd_of_last htrim.last]
  have hcs : ∀ c ∈ cs, endsExpression c = false := by
    intro c hc
    have hne : c ≠ '#' := fun heq => hunhashed (heq ▸ hc)
    have hne' : c ≠ '\n' := fun heq => hline (heq ▸ hc)
    simp [endsExpression, hne, hne']
  have hsplit := splitFollowMarker?_whole marker hne hcs
  refine ⟨hstrip ▸ hne, fun run hrun => ?_, fun _ => by rw [hstrip, hsplit]; rfl⟩
  rw [hstrip, hsplit] at hrun
  cases hrun

/-- What is left of a line without the marker fills a line too, if anything is left. -/
theorem FillsLine.stripMarker (h : FillsLine cs) (hne : stripMarker marker cs ≠ []) :
    FillsLine (stripMarker marker cs) := by
  obtain ⟨rest, hrest⟩ := stripMarker_prefix marker h.trimmed
  refine ⟨⟨fun c hc => h.trimmed.first c ?_, last_stripMarker marker cs⟩, hne, fun hmem => ?_⟩
  · rw [← hrest, List.head?_append, hc, Option.some_or]
  · exact h.single (hrest ▸ List.mem_append_left rest hmem)

namespace Marked

/-- The last of the markers is left out. -/
theorem stripMarker_mark (h : Marked marker cs) (hmark : FillsLine marker) :
    stripMarker marker (cs ++ '\n' :: marker) = cs := by
  rw [List.append_cons, stripMarker_append hmark.nonempty hmark.trimmed.last,
    trimEnd_append (List.forall_mem_singleton.mpr rfl), trimEnd_of_last h.trimmed.last]

theorem stripMarker (h : Marked marker cs) (hne : TaskDialogue.stripMarker marker cs ≠ []) :
    Marked marker (TaskDialogue.stripMarker marker cs) := by
  cases h with
  | line h => exact .line (h.stripMarker hne)
  | mark h hmark => rwa [h.stripMarker_mark hmark]

end Marked

/-- The turn that is read from the text of a turn. -/
def Turn.asPrinted (marker : List Char) : Turn → Turn
  | program t =>
    program { t with expression := String.ofList (stripMarker marker t.expression.toList) }
  | t => t

namespace Transcript

/-! ### Reading again -/

theorem readsAs_marked (hmarker : IsMarker marker) {index : Nat} (hindex : index < indexBound)
    (h : Marked marker cs) :
    ReadsAs marker (programText index cs) (.program ⟨index, String.ofList cs⟩) := by
  induction h with
  | line h => exact readsAs_programText hmarker hindex h.trimmed h.nonempty h.single
  | mark h hmark ih =>
    have hread := ih.mark hmark.trimmed hmark.nonempty hmark.single
    simpa [programText] using hread

/-- A turn that was read is read again, when its expression is not all marker. -/
theorem readsAs_asPrinted (hmarker : IsMarker marker) {t : Turn} (h : t.AsRead marker)
    (hne : ∀ line, t = .program line → stripMarker marker line.expression.toList ≠ []) :
    ReadsAs marker (t.render marker) (t.asPrinted marker) := by
  cases t with
  | user query => exact readsAs_user hmarker (Trimmed.iff_trim_eq.mpr h.trimmed) h.single
  | agent response => exact readsAs_agent hmarker (Trimmed.iff_trim_eq.mpr h.trimmed) h.single
  | program line =>
    have htext := render_program line.index
      (String.ofList (stripMarker marker line.expression.toList))
    rw [String.toList_ofList] at htext
    rw [Turn.render, htext]
    exact readsAs_marked hmarker h.1 (h.2.stripMarker (hne line rfl))
  | auto line => exact h.elim
  | autoTransient line => exact h.elim

theorem refused_render (hmarker : IsMarker marker) {line : ProgramTurn}
    (hempty : stripMarker marker line.expression.toList = []) :
    Refused marker ((Turn.program line).render marker) := by
  have htext : (Turn.program line).render marker = programText line.index [] := by
    rw [Turn.render, hempty]
    exact render_program line.index ""
  rw [htext]
  exact refused_programText hmarker line.index

section

variable {t : Transcript}

/-- Program lines that have something left without the marker are read as they were printed. -/
theorem parse_display_of_asRead (hmarker : IsMarker t.followMarker.toList)
    (hread : ∀ turn ∈ t.turns, turn.AsRead t.followMarker.toList)
    (hne : ∀ line, .program line ∈ t.turns →
      stripMarker t.followMarker.toList line.expression.toList ≠ []) :
    parse t.display t.followMarker =
      .ok ⟨t.turns.map (Turn.asPrinted t.followMarker.toList), t.followMarker⟩ := by
  rw [display_of_asRead hread]
  refine parse_of_readsAs (List.forall₂_map_left_iff.mpr (List.forall₂_map_right_iff.mpr ?_))
  refine List.forall₂_same.mpr fun turn hturn => readsAs_asPrinted hmarker (hread turn hturn) ?_
  rintro line rfl
  exact hne line hturn

/-- A program line with nothing left makes the text unreadable. -/
theorem nonempty_of_parse_display {t' : Transcript} (hmarker : IsMarker t.followMarker.toList)
    (hread : ∀ turn ∈ t.turns, turn.AsRead t.followMarker.toList)
    (h : parse t.display t.followMarker = .ok t') {line : ProgramTurn}
    (hline : .program line ∈ t.turns) :
    stripMarker t.followMarker.toList line.expression.toList ≠ [] := by
  intro hempty
  have htexts : ∀ text ∈ t.turns.map (Turn.render t.followMarker.toList),
      (∃ turn, ReadsAs t.followMarker.toList text turn) ∨ Refused t.followMarker.toList text := by
    refine List.forall_mem_map.mpr fun turn hturn => ?_
    by_cases hlost : ∃ line, turn = .program line ∧
        stripMarker t.followMarker.toList line.expression.toList = []
    · obtain ⟨line, rfl, hempty⟩ := hlost
      exact .inr (refused_render hmarker hempty)
    · exact .inl ⟨_, readsAs_asPrinted hmarker (hread turn hturn) fun line hline hempty =>
        hlost ⟨line, hline, hempty⟩⟩
  obtain ⟨error, herror⟩ := parse_of_refused htexts
    ⟨_, List.mem_map_of_mem hline, refused_render hmarker hempty⟩
  rw [display_of_asRead hread, herror] at h
  cases h

end

/-- A turn that was read is the same without its marker, where this can be left out. -/
theorem unmarked_asPrinted (hmarker : IsMarker marker) {turn : Turn} (h : turn.AsRead marker)
    (hstrips : ∀ line, turn = .program line → line.Strips marker) :
    turn.Unmarked marker (turn.asPrinted marker) := by
  cases turn with
  | user query => exact .user query
  | agent response => exact .agent response
  | program line =>
    have hline := hstrips line rfl
    refine .program ⟨rfl, fun p hp => ?_, ?_⟩
    · rw [String.toList_ofList]
      exact hp.stripMarker hmarker h.2.trimmed (hline.expression ⟨p, hp⟩)
    · rw [String.toList_ofList]
      exact hline.unfollowed
  | auto line => exact h.elim
  | autoTransient line => exact h.elim

/-- The marker could be left out from a line that is the same turn without it. -/
theorem strips_of_unmarked {line : ProgramTurn}
    (hne : stripMarker marker line.expression.toList ≠ [])
    (h : (Turn.program line).Unmarked marker ((Turn.program line).asPrinted marker)) :
    line.Strips marker := by
  cases h with
  | program h =>
    have hmeaning := h.meaning
    have hunfollowed := h.unfollowed
    rw [String.toList_ofList] at hmeaning hunfollowed
    refine ⟨hne, hunfollowed, fun ⟨p, hp⟩ => ?_⟩
    obtain ⟨run, followed, q, hsplit, -⟩ := hmeaning p hp
    rw [hsplit]
    rfl

/-- What was read is printed without its markers and read again if the marker can be left out from
every program line, and only then. -/
theorem rereads_iff {text marker : String} {t : Transcript} (h : parse text marker = .ok t)
    (hhash : marker.toList.head? = some '#') :
    t.Rereads ↔ ∀ line ∈ t.programTurns, line.Strips marker.toList := by
  obtain ⟨rfl, hread⟩ := asRead_parse h
  have hmarker : IsMarker t.followMarker.toList := fun c hc => Option.some.inj (hc.symm.trans hhash)
  constructor
  · rintro ⟨turns, hparse, hturns⟩ line hline
    rw [mem_programTurns hread] at hline
    have hne := fun line (hline : .program line ∈ t.turns) =>
      nonempty_of_parse_display hmarker hread hparse hline
    rw [parse_display_of_asRead hmarker hread hne] at hparse
    obtain ⟨rfl, -⟩ := Transcript.mk.inj (Except.ok.inj hparse)
    have hunmarked := List.forall₂_same.mp (List.forall₂_map_right_iff.mp hturns)
    exact strips_of_unmarked (hne line hline) (hunmarked _ hline)
  · intro hstrips
    have hlines : ∀ line, .program line ∈ t.turns → line.Strips t.followMarker.toList :=
      fun line hline => hstrips line ((mem_programTurns hread line).mpr hline)
    refine ⟨_, parse_display_of_asRead hmarker hread fun line hline => (hlines line hline).nonempty, ?_⟩
    refine List.forall₂_map_right_iff.mpr (List.forall₂_same.mpr fun turn hturn => ?_)
    refine unmarked_asPrinted hmarker (hread turn hturn) ?_
    rintro line rfl
    exact hlines line hturn

/-- A marker on a line of its own, one on the line of its expression, and none. -/
def markedCalls : Transcript where
  turns := [.user "wake me", .program ⟨0, "create_alarm()\n#y"⟩,
    .program ⟨1, "x0.time = \"8:30\" #y"⟩, .program ⟨2, "perform(x0)"⟩]
  followMarker := "#y"

theorem parse_markedCalls :
    parse "user: wake me\n0 create_alarm()\n#y\n1 x0.time = \"8:30\" #y\n2 perform(x0)" "#y" =
      .ok markedCalls := by
  decide

theorem rereads_markedCalls :
    parse "user: wake me\n0 create_alarm()\n#y\n1 x0.time = \"8:30\" #y\n2 perform(x0)" "#y" =
      .ok markedCalls ∧ "#y".toList.head? = some '#' ∧ markedCalls.Rereads := by
  refine ⟨parse_markedCalls, rfl, (rereads_iff parse_markedCalls rfl).mpr ?_⟩
  have hlines : markedCalls.programTurns = [⟨0, "create_alarm()\n#y"⟩,
    ⟨1, "x0.time = \"8:30\" #y"⟩, ⟨2, "perform(x0)"⟩] := rfl
  simp only [hlines, List.forall_mem_cons, List.not_mem_nil, false_imp_iff, implies_true, and_true]
  have hmarker : Trimmed "#y".toList := Trimmed.iff_trim_eq.mpr (by decide)
  refine ⟨?_, ?_, ?_⟩
  · exact ProgramTurn.strips_of_unhashed "create_alarm()".toList ['\n'] rfl hmarker
      (Trimmed.iff_trim_eq.mpr (by decide)) (by decide) (by decide) (by decide)
      (List.forall_mem_singleton.mpr rfl) (.inr rfl)
  · exact ProgramTurn.strips_of_unhashed "x0.time = \"8:30\"".toList [' '] rfl hmarker
      (Trimmed.iff_trim_eq.mpr (by decide)) (by decide) (by decide) (by decide)
      (List.forall_mem_singleton.mpr rfl) (.inr rfl)
  · exact ProgramTurn.strips_of_unhashed "perform(x0)".toList [] rfl hmarker
      (Trimmed.iff_trim_eq.mpr (by decide)) (by decide) (by decide) (by decide)
      (List.forall_mem_nil _) (.inl rfl)

/-- A turn with the marker on two lines. -/
def markedTwice : Transcript where
  turns := [.program ⟨0, "create_alarm()\n#y\n#y"⟩]
  followMarker := "#y"

/-- One of the two markers stays, and the turn is followed when it is read again. -/
theorem markedTwice_stays : parse "0 create_alarm()\n#y\n#y" "#y" = .ok markedTwice ∧
    "#y".toList.head? = some '#' ∧ ¬markedTwice.Rereads := by
  refine ⟨by decide, rfl, fun ⟨turns, hparse, hturns⟩ => ?_⟩
  have hread : parse markedTwice.display "#y" = .ok ⟨[.program ⟨0, "create_alarm()\n#y"⟩], "#y"⟩ := by
    decide
  obtain ⟨rfl, -⟩ := Transcript.mk.inj (Except.ok.inj (hparse.symm.trans hread))
  obtain ⟨hline, -⟩ := List.forall₂_cons.mp hturns
  cases hline with
  | program hline => exact hline.unfollowed "create_alarm()".toList (by decide)

end Transcript

end TaskDialogue
