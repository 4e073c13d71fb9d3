import TaskDialogue.Proofs.Conversation.Replay
import TaskDialogue.Proofs.Store.Variables
import TaskDialogue.Proofs.Turn.Effects

/-!
# Turns that the conversation numbers itself

When every turn takes the next index, follow-ups included, the lines of the transcript have
increasing indices. A turn then finds its own variable unbound, so that no variable is ever
given another value.
-/
namespace TaskDialogue

/-- What a caller adds without an index of its own. -/
inductive Push where
  | program (expression : String)
  | user (query : String)
  | agent (response : String)

namespace State

/-- Every bound variable is that of a turn before the index. -/
def BoundBefore (s : State) (n : Nat) : Prop :=
  ∀ v, (s.find? v).isSome → ∃ k, k < n ∧ v = varName k

theorem boundBefore_new (context : AppContext) : (new context).BoundBefore 0 := by
  simp [BoundBefore, new, find?, findIn]

theorem BoundBefore.unbound {s : State} {n turn : Nat} (h : s.BoundBefore n) (hturn : n ≤ turn) :
    s.find? (varName turn) = none := by
  rw [← Option.not_isSome_iff_eq_none]
  intro hbound
  obtain ⟨k, hk, heq⟩ := h _ hbound
  have := varName_injective heq
  omega

end State

namespace Executor

/-- Each line finds its own variable unbound when it is executed. -/
def Fresh (x : Executor) : List (Nat × String) → State → Prop
  | [], _ => True
  | (turn, text) :: rest, s =>
    s.find? (varName turn) = none ∧ x.Fresh rest (x.execute turn text s).2

variable {x : Executor} {s : State}

theorem boundBefore_execute {n turn : Nat} (text : String) (h : s.BoundBefore n)
    (hturn : n ≤ turn) : (x.execute turn text s).2.BoundBefore (turn + 1) := by
  intro v hv
  obtain hsame | ⟨rfl, -⟩ := find?_execute x turn text s v
  · obtain ⟨k, hk, rfl⟩ := h v (hsame ▸ hv)
    exact ⟨k, by omega, rfl⟩
  · exact ⟨turn, by omega, rfl⟩

/-- Lines with increasing indices are fresh where only variables of earlier turns are bound. -/
theorem fresh_of_increasing {lines : List (Nat × String)} {n : Nat} (h : s.BoundBefore n)
    (hlines : (lines.map (·.1)).Pairwise (· < ·)) (hn : ∀ line ∈ lines, n ≤ line.1) :
    x.Fresh lines s := by
  induction lines generalizing s n with
  | nil => trivial
  | cons line lines ih =>
    obtain ⟨turn, text⟩ := line
    rw [List.map_cons, List.pairwise_cons] at hlines
    have hturn : n ≤ turn := hn _ List.mem_cons_self
    refine ⟨h.unbound hturn, ih (boundBefore_execute text h hturn) hlines.2 fun line hline => ?_⟩
    exact hlines.1 _ (List.mem_map_of_mem hline)

theorem fresh_append {first rest : List (Nat × String)} :
    x.Fresh (first ++ rest) s →
      x.Fresh first s ∧ ∀ results t, x.executeAll first s = (.ok results, t) → x.Fresh rest t := by
  induction first generalizing s with
  | nil =>
    refine fun h => ⟨trivial, fun results t ht => ?_⟩
    simp only [executeAll, Prod.mk.injEq] at ht
    exact ht.2 ▸ h
  | cons line first ih =>
    rintro ⟨hline, hfirst⟩
    obtain ⟨hfresh, hrest⟩ := ih hfirst
    refine ⟨⟨hline, hfresh⟩, fun results t ht => ?_⟩
    obtain ⟨results, ht⟩ := executeAll_cons ht
    exact hrest results t ht

/-- What each turn keeps that finds its own variable unbound is kept by all of them. -/
theorem executeAll_preserves {P : State → Prop}
    (step : ∀ turn text s r, s.find? (varName turn) = none →
      (x.execute turn text s).1 = .ok r → P s → P (x.execute turn text s).2)
    {lines : List (Nat × String)} {t : State} {results : List ActionResult}
    (hfresh : x.Fresh lines s) (h : x.executeAll lines s = (.ok results, t)) (hs : P s) : P t := by
  induction lines generalizing s results with
  | nil =>
    simp only [executeAll, Prod.mk.injEq] at h
    exact h.2 ▸ hs
  | cons line lines ih =>
    obtain ⟨turn, text⟩ := line
    obtain ⟨r, rest, hr, hrest, -⟩ := executeAll_cons_ok h
    exact ih hfresh.2 hrest (step turn text s r hfresh.1 hr hs)

end Executor

namespace Conversation

variable {c : Conversation} {x : Executor} {first : State}

/-- The conversation after a push. -/
def pushNext (c : Conversation) : Push → Conversation
  | .program expression => (c.pushProgram expression).2
  | .user query => c.say (.user query)
  | .agent response => c.say (.agent response)

/-- The conversation after pushes in order. -/
def pushAll (c : Conversation) (pushes : List Push) : Conversation := pushes.foldl pushNext c

theorem index_followUp? {result : ActionResult} {next : Nat} {turn : Turn} {line : ProgramTurn}
    (h : followUp? result next = some turn) (hline : turn.program? = some line) :
    line.index = next := by
  have hindex : turn.index? = some next := by
    unfold followUp? at h
    split at h <;> cases h <;> rfl
  rw [Turn.index?, hline, Option.map_some, Option.some.injEq] at hindex
  exact hindex

section

variable {P : Conversation → Prop}

/-- What is preserved by words and by lines with the next index holds after any pushes. -/
theorem pushAll_preserves (say : ∀ c turn, turn.program? = none → P c → P (c.say turn))
    (attempt : ∀ c turn line, turn.program? = some line → line.index = c.nextIndex → P c →
      P (c.attempt turn line).2)
    (pushes : List Push) (hc : P c) : P (c.pushAll pushes) := by
  induction pushes generalizing c with
  | nil => exact hc
  | cons push pushes ih =>
    refine ih ?_
    cases push with
    | user query => exact say c _ rfl hc
    | agent response => exact say c _ rfl hc
    | program expression =>
      have hattempt := attempt c (.program ⟨c.nextIndex, expression⟩) ⟨c.nextIndex, expression⟩ rfl
        rfl hc
      simp only [pushNext, pushProgram]
      split
      · next heq => rwa [heq] at hattempt
      · next result d heq =>
        rw [heq] at hattempt
        dsimp only
        split
        · simp only [addFollowUp]
          split
          · exact hattempt
          · next turn hturn =>
            cases hline : turn.program? with
            | none => exact hattempt
            | some line =>
              exact attempt d turn line hline (index_followUp? hturn hline) hattempt
        · exact hattempt

end

theorem replays_pushAll (x : Executor) (first : State) (autoFollowUp : Bool)
    (pushes : List Push) : Replays x first ((start x first autoFollowUp).pushAll pushes) :=
  pushAll_preserves (fun _ _ hturn hc => hc.say hturn) (fun _ _ _ hturn _ hc => hc.attempt hturn)
    pushes (replays_start x first autoFollowUp)

theorem lt_nextIndex {line : Nat × String} (h : line ∈ c.lines) : line.1 < c.nextIndex := by
  simp only [lines, transcript, Transcript.programTurns, List.mem_map, List.mem_filterMap] at h
  obtain ⟨line, ⟨turn, hturn, hline⟩, rfl⟩ := h
  have hmem : line.index ∈ c.turns.filterMap Turn.index? :=
    List.mem_filterMap.mpr ⟨turn, hturn, by simp [Turn.index?, hline]⟩
  simp only [nextIndex, maxTurnIndex?]
  cases hmax : (c.turns.filterMap Turn.index?).max? with
  | none => simp [List.max?_eq_none_iff.mp hmax] at hmem
  | some greatest => exact Nat.lt_succ_of_le ((List.max?_eq_some_iff.mp hmax).2 _ hmem)

/-- The lines of a conversation that numbers its turns have increasing indices. -/
theorem increasing_pushAll (pushes : List Push) (h : (c.lines.map (·.1)).Pairwise (· < ·)) :
    ((c.pushAll pushes).lines.map (·.1)).Pairwise (· < ·) := by
  refine pushAll_preserves (P := fun d => (d.lines.map (·.1)).Pairwise (· < ·)) ?_ ?_ pushes h
  · intro d turn hturn hd
    rwa [lines_say hturn]
  · intro d turn line hline hindex hd
    obtain hsame | hmore := lines_attempt (c := d) hline
    · rwa [hsame]
    · rw [hmore, List.map_append, List.pairwise_append]
      refine ⟨hd, List.pairwise_singleton _ _, fun k hk l hl => ?_⟩
      obtain ⟨earlier, hearlier, rfl⟩ := List.mem_map.mp hk
      rw [List.map_singleton, List.mem_singleton] at hl
      rw [hl, ProgramTurn.line, hindex]
      exact lt_nextIndex hearlier

/-- No line of such a conversation gives a variable another value. -/
theorem fresh_pushAll (x : Executor) (context : AppContext) (autoFollowUp : Bool)
    (pushes : List Push) :
    x.Fresh ((start x (.new context) autoFollowUp).pushAll pushes).lines (.new context) :=
  Executor.fresh_of_increasing (State.boundBefore_new context)
    (increasing_pushAll pushes List.Pairwise.nil) fun _ _ => Nat.zero_le _

end Conversation

end TaskDialogue
