import TaskDialogue.Proofs.Conversation.Pushes
import TaskDialogue.Proofs.Turn.Outcome
import TaskDialogue.Proofs.Turn.Sequence

/-!
# Variables are bound once

A conversation that numbers its turns has a variable for each of them, and binds no others. The
variable of a turn is free until the turn is executed, and a turn binds no variable but its own: so
what a variable is bound to it is bound to for the rest of the conversation.
-/
namespace TaskDialogue

namespace Executor

variable {x : Executor} {s : State} {lines : List (Nat × String)} {v : String}

/-- Turns leave a variable as it is, unless it is that of one of them. -/
theorem find?_after (x : Executor) (lines : List (Nat × String)) (s : State) (v : String) :
    (x.after lines s).find? v = s.find? v ∨ ∃ line ∈ lines, v = varName line.1 := by
  induction lines generalizing s with
  | nil => exact .inl rfl
  | cons line rest ih =>
    obtain hlater | ⟨later, hmem, hv⟩ := ih (x.execute line.1 line.2 s).2
    · obtain hsame | ⟨hv, -⟩ := find?_execute x line.1 line.2 s v
      · exact .inl (hlater.trans hsame)
      · exact .inr ⟨line, List.mem_cons_self, hv⟩
    · exact .inr ⟨later, List.mem_cons_of_mem _ hmem, hv⟩

/-- Turns that find their own variables free keep what is bound. -/
theorem Fresh.find?_after {value : Value} (hfresh : x.Fresh lines s) (hv : s.find? v = some value) :
    (x.after lines s).find? v = some value := by
  induction lines generalizing s with
  | nil => exact hv
  | cons line rest ih =>
    obtain ⟨turn, text⟩ := line
    obtain ⟨hfree, hrest⟩ := hfresh
    refine ih hrest ?_
    rw [find?_execute_of_bound hfree (by rw [hv]; rfl), hv]

end Executor

namespace Conversation

variable {x : Executor} {first : State} {c : Conversation}

/-- The state of a conversation is the one after its lines. -/
theorem Replays.state (h : Replays x first c) : x.after c.lines first = c.state :=
  Executor.after_of_executeAll h.run

/-- Pushes add lines to those that are there. -/
theorem lines_pushAll (c : Conversation) (pushes : List Push) :
    ∃ more, (c.pushAll pushes).lines = c.lines ++ more := by
  refine pushAll_preserves (P := fun d => ∃ more, d.lines = c.lines ++ more) (fun d turn hturn hd => ?_)
    (fun d turn line hline _ hd => ?_) pushes ⟨[], (List.append_nil _).symm⟩
  · rwa [lines_say hturn]
  · obtain ⟨more, hmore⟩ := hd
    obtain hsame | hadded := lines_attempt (c := d) hline
    · exact ⟨more, hsame.trans hmore⟩
    · exact ⟨more ++ [line.line], by rw [hadded, hmore, List.append_assoc]⟩

theorem index_lines (c : Conversation) :
    c.lines.map (·.1) = c.transcript.programTurns.map (·.index) := by
  simp [lines, ProgramTurn.line]

/-- In a conversation that starts anew and numbers its turns, whatever is pushed and whichever
turns fail, the program turns have increasing indices, and every variable that is bound is that of
one of them. What a variable is bound to at some time, between pushes or after any of the program
turns, it is bound to from then on. -/
theorem bound_once (x : Executor) (context : AppContext) (autoFollowUp : Bool)
    (pushes more : List Push) :
    let c := (start x (.new context) autoFollowUp).pushAll pushes
    let d := c.pushAll more
    let turns := d.transcript.programTurns
    (turns.map (·.index)).Pairwise (· < ·) ∧
      (∀ v value, d.state.find? v = some value → ∃ turn ∈ turns, v = varName turn.index) ∧
      (∀ v value, c.state.find? v = some value → d.state.find? v = some value) ∧
      ∀ done later v value, turns = done ++ later →
        (x.after (done.map ProgramTurn.line) (.new context)).find? v = some value →
        d.state.find? v = some value := by
  intro c d turns
  have hd : d = (start x (.new context) autoFollowUp).pushAll (pushes ++ more) :=
    List.foldl_append.symm
  have hreplays : Replays x (.new context) d := hd ▸ replays_pushAll x _ autoFollowUp _
  have hfresh : x.Fresh d.lines (.new context) := hd ▸ fresh_pushAll x context autoFollowUp _
  have hkept : ∀ done later v value, d.lines = done ++ later →
      (x.after done (.new context)).find? v = some value → d.state.find? v = some value := by
    intro done later v value hlines hv
    have hrun := hreplays.run
    rw [hlines] at hrun hfresh
    obtain ⟨results, _, u, hdone, -, -, -⟩ := Executor.executeAll_append_ok hrun
    have hlater := (Executor.fresh_append hfresh).2 results u hdone
    rw [← hreplays.state, hlines, Executor.after_append]
    rw [← Executor.after_of_executeAll hdone] at hlater
    exact hlater.find?_after hv
  refine ⟨?_, fun v value hv => ?_, fun v value hv => ?_, fun done later v value hturns => ?_⟩
  · rw [← index_lines d, hd]
    exact increasing_pushAll _ List.Pairwise.nil
  · rw [← hreplays.state] at hv
    obtain hnew | ⟨line, hline, rfl⟩ := Executor.find?_after x d.lines (.new context) v
    · rw [hnew] at hv
      cases hv
    · obtain ⟨turn, hturn, rfl⟩ := List.mem_map.mp hline
      exact ⟨turn, hturn, rfl⟩
  · obtain ⟨added, hadded⟩ := lines_pushAll c more
    rw [← (replays_pushAll x _ autoFollowUp pushes).state] at hv
    exact hkept c.lines added v value hadded hv
  · refine hkept (done.map ProgramTurn.line) (later.map ProgramTurn.line) v value ?_
    rw [← List.map_append, ← hturns]
    rfl

end Conversation

end TaskDialogue
