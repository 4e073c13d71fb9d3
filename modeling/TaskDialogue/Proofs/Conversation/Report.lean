import TaskDialogue.Proofs.Conversation.Replay
import TaskDialogue.Proofs.Store.Listing
import TaskDialogue.Proofs.Turn.Outcome

/-!
# What a report says

A report lists the variables that were completed and those of tasks that were not, each by the
index of its turn, and has one entry for each turn that was executed. Every turn binds its own
variable and completes only what is bound, so the two lists share the variables of tasks among
them.
-/
namespace TaskDialogue

namespace Exec

/-- A turn binds every variable once. -/
theorem names_turn (registry : Registry) :
    TurnInvariant registry (fun s => (s.bindings.map (·.1)).Nodup) (fun _ _ => True)
      (fun _ _ => True) (fun _ _ => True) := by
  refine .of_state (fun _ hs => hs) (fun v value hs => State.nodup_bind hs v value)
    (fun _ _ hs => hs) (fun hs => ?_) (fun hs _ hbindings _ => ?_)
  · rwa [State.bindings_followRecommendation]
  · rwa [hbindings]

end Exec

namespace Executor

variable {x : Executor} {s : State} {turns : List Nat}

/-- A turn completes one variable at most. -/
theorem completed_execute_eq (x : Executor) (turn : Nat) (text : String) (s : State) :
    (x.execute turn text s).2.completed = s.completed ∨
      ∃ v, (x.execute turn text s).2.completed = (s.complete v).completed := by
  cases hcall : x.call? turn text s with
  | none => exact .inl (by rw [(execute_of_no_call hcall).2.rest])
  | some r =>
    obtain ⟨call, u⟩ := r
    obtain ⟨hclassified, -, hcompleted, -⟩ := call?_cases hcall
    rw [execute_of_call hcall]
    cases hprotocol : Exec.protocolTask? call.var call.kind u with
    | none => exact .inl ((Exec.runKind_of_none call.index hprotocol).1.trans hcompleted)
    | some p =>
      obtain ⟨target, w⟩ := p
      have hw : w.completed = s.completed :=
        (Exec.completed_protocolTask hclassified.assigned hprotocol).trans hcompleted
      rw [Exec.runKind_of_protocolTask call.index hprotocol]
      obtain ⟨_, -, hr⟩ | ⟨-, ⟨_, -, hr⟩ | ⟨_, _, -, hr⟩⟩ :=
        Exec.performOrRecommend_cases call.var call.index target w
      · exact .inl (by rw [hr, ← hw])
      · exact .inl (by rw [hr, ← hw])
      · exact .inr ⟨call.var, by simp only [hr, State.complete, State.setTask, hw]⟩

/-- What is listed after a turn are the variables of before and its own. -/
theorem listed_execute (h : s.Listed turns) (turn : Nat) (text : String) :
    (x.execute turn text s).2.Listed (turns ++ [turn]) where
  bound v hv := by
    obtain hsame | ⟨rfl, -⟩ := find?_execute x turn text s v
    · obtain ⟨i, hi, rfl⟩ := h.bound v (hsame ▸ hv)
      exact ⟨i, List.mem_append_left _ hi, rfl⟩
    · exact ⟨turn, by simp, rfl⟩
  completed v hv := by
    obtain hbefore | ⟨_, -, hnow, -⟩ := completed_execute hv
    · obtain hsame | ⟨-, hsome⟩ := find?_execute x turn text s v
      · exact hsame ▸ h.completed v hbefore
      · exact hsome
    · rw [hnow]
      rfl
  names := (Exec.names_turn x.registry).execute turn text h.names
  once := by
    obtain hsame | ⟨v, hv⟩ := completed_execute_eq x turn text s
    · exact hsame ▸ h.once
    · exact hv ▸ State.nodup_complete h.once v

end Executor

/-- A line is reported with its result or with its error. -/
theorem TurnOutcome.result_xor_error (o : TurnOutcome) :
    Xor ((o.toJson.field? "result").isSome = true) ((o.toJson.field? "error").isSome = true) := by
  obtain ⟨index, expression, auto, outcome⟩ := o
  cases auto <;> cases outcome <;>
    simp [toJson, Json.objectOf, Json.field?, Json.lookup?, Xor]

/-- A turn and the state in which it is executed. -/
structure Execution where
  turn : Turn
  state : State

/-- The entry of an executed turn: what it is and how it ended, and whether the application put it
in. -/
structure Execution.Entry (x : Executor) (e : Execution) (o : TurnOutcome) : Prop where
  line : e.turn.program? = some ⟨o.index, o.expression⟩
  outcome : o.outcome = (x.execute o.index o.expression e.state).1
  auto : o.auto = true ↔ ∀ line, e.turn ≠ .program line
  ends : Xor ((o.toJson.field? "result").isSome = true) ((o.toJson.field? "error").isSome = true)

namespace Conversation

/-- What is executed when a turn is pushed: the turn, if it has a program line, and then the
follow-up turn that is derived from its result. -/
def executed (c : Conversation) (turn : Turn) : List Execution :=
  match turn.program? with
  | none => []
  | some line =>
    ⟨turn, c.state⟩ ::
      match c.attempt turn line with
      | (.error _, _) => []
      | (.ok result, d) =>
        if c.autoFollowUp && !turn.isAuto then
          ((followUp? result d.nextIndex).map (⟨·, d.state⟩)).toList
        else []

/-- What is executed when turns are pushed one after another. -/
def executedAll (c : Conversation) : List Turn → List Execution
  | [] => []
  | turn :: turns => c.executed turn ++ executedAll (c.push turn).2 turns

variable {x : Executor} {c : Conversation}

theorem isAuto_iff {turn : Turn} {line : ProgramTurn} (h : turn.program? = some line) :
    turn.isAuto = true ↔ ∀ line, turn ≠ .program line := by
  cases turn <;> simp [Turn.isAuto, Turn.program?] at h ⊢

/-- To attempt a turn adds its entry. -/
theorem entry_attempt (c : Conversation) {turn : Turn} {line : ProgramTurn}
    (h : turn.program? = some line) :
    ∃ o, (c.attempt turn line).2.outcomes = c.outcomes ++ [o] ∧
      Execution.Entry c.executor ⟨turn, c.state⟩ o := by
  refine ⟨_, outcomes_attempt c turn line, h, ?_, isAuto_iff h, TurnOutcome.result_xor_error _⟩
  simp only [attempt]
  split <;> simp only [*]

/-- To push a turn adds an entry for each turn that it executes. -/
theorem entries_push (c : Conversation) (turn : Turn) :
    ∃ os, (c.push turn).2.outcomes = c.outcomes ++ os ∧
      List.Forall₂ (Execution.Entry c.executor) (c.executed turn) os := by
  cases hline : turn.program? with
  | none => exact ⟨[], by simp [push, hline, say], by simp [executed, hline]⟩
  | some line =>
    obtain ⟨o, houtcomes, ho⟩ := entry_attempt c hline
    have hexecutor := attempt_executor c turn line
    rw [push_of_program? hline]
    simp only [executed, hline]
    rcases hattempt : c.attempt turn line with ⟨e | result, d⟩
    · rw [hattempt] at houtcomes
      exact ⟨[o], houtcomes, .cons ho .nil⟩
    · rw [hattempt] at houtcomes hexecutor
      dsimp only at houtcomes hexecutor ⊢
      split
      · cases hfollow : followUp? result d.nextIndex with
        | none => exact ⟨[o], by simp [addFollowUp, hfollow, houtcomes], .cons ho .nil⟩
        | some next =>
          obtain ⟨⟨nextLine, hnext⟩, -⟩ := program?_followUp? hfollow
          obtain ⟨o', houtcomes', ho'⟩ := entry_attempt d hnext
          rw [hexecutor] at ho'
          exact ⟨[o, o'], by simp [addFollowUp, hfollow, hnext, houtcomes', houtcomes],
            .cons ho (.cons ho' .nil)⟩
      · exact ⟨[o], houtcomes, .cons ho .nil⟩

theorem push_executor (c : Conversation) (turn : Turn) : (c.push turn).2.executor = c.executor :=
  push_preserves (P := fun d => d.executor = c.executor) (fun _ _ _ hd => hd)
    (fun _ _ _ _ hd => (attempt_executor ..).trans hd) turn rfl

/-- There is an entry for each turn that was executed, in order. -/
theorem entries_run (c : Conversation) (turns : List Turn) :
    ∃ os, (c.run turns).outcomes = c.outcomes ++ os ∧
      List.Forall₂ (Execution.Entry c.executor) (c.executedAll turns) os := by
  induction turns generalizing c with
  | nil => exact ⟨[], (List.append_nil _).symm, .nil⟩
  | cons turn turns ih =>
    obtain ⟨first, hfirst, hentries⟩ := entries_push c turn
    obtain ⟨rest, hrest, hmore⟩ := ih (c.push turn).2
    rw [push_executor] at hmore
    refine ⟨first ++ rest, ?_, List.rel_append hentries hmore⟩
    rw [← List.append_assoc, ← hfirst]
    exact hrest

/-- What is listed in a conversation are the variables of turns that were executed. -/
theorem listed_run (x : Executor) (context : AppContext) (autoFollowUp : Bool) (turns : List Turn) :
    let c := (start x (.new context) autoFollowUp).run turns
    c.state.Listed (c.outcomes.map (·.index)) := by
  refine run_preserves (P := fun d => d.state.Listed (d.outcomes.map fun o => o.index))
    (fun d turn _ hd => ?_) (fun d turn line _ hd => ?_) turns ?_
  · exact hd
  · rcases hline : d.executor.execute line.index line.expression d.state with ⟨e | result, s⟩
    · rw [attempt_error hline]
      exact hd.mono (by simp)
    · have hnext := Executor.listed_execute (x := d.executor) hd line.index line.expression
      rw [hline] at hnext
      rw [attempt_ok hline]
      simpa using hnext
  · exact State.listed_new context

/-- Whatever is pushed into a conversation that starts anew, every variable that is bound is that of
a turn, and every one that was completed is bound. No variable is reported both as completed and as
incomplete, and one that is bound to a task or an entity is reported as one of them. As long as the
indices of the executed turns, follow-up turns included, are indices of their type, both lists
strictly increase by index, in whichever order the state has its bindings and completed variables.
The turns that were executed have an entry each, in order. -/
theorem report_partition (x : Executor) (context : AppContext) (autoFollowUp : Bool)
    (turns : List Turn) :
    let c := (start x (.new context) autoFollowUp).run turns
    let r := c.report
    (∀ v, (c.state.find? v).isSome ∨ v ∈ c.state.completed → ∃ i, v = varName i) ∧
      (∀ v ∈ c.state.completed, (c.state.find? v).isSome) ∧
      (∀ v, v ∈ r.completed ↔ v ∈ c.state.completed) ∧
      r.completed.Disjoint r.incomplete ∧
      (∀ v id, c.state.find? v = some (.object id) →
        Xor (v ∈ r.completed) (v ∈ r.incomplete)) ∧
      ((∀ o ∈ r.turns, o.index < Text.indexBound) →
        Increasing r.completed ∧ Increasing r.incomplete ∧
          ∀ bindings completed, bindings.Perm c.state.bindings →
            completed.Perm c.state.completed →
            report { c with state := { c.state with bindings, completed } } = r) ∧
      List.Forall₂ (Execution.Entry x)
        ((start x (.new context) autoFollowUp).executedAll turns) r.turns := by
  intro c r
  have hlisted : c.state.Listed (c.outcomes.map (·.index)) :=
    listed_run x context autoFollowUp turns
  have hcompleted : ∀ v, v ∈ r.completed ↔ v ∈ c.state.completed := fun v => List.mem_mergeSort
  have hdisjoint : ∀ v ∈ r.completed, v ∉ r.incomplete := fun v hv hincomplete =>
    (State.mem_incomplete.mp hincomplete).1 ((hcompleted v).mp hv)
  refine ⟨fun v hv => ?_, hlisted.completed, hcompleted, fun v => hdisjoint v, fun v id hv => ?_,
    fun hindex => ?_, ?_⟩
  · obtain ⟨i, -, rfl⟩ := hlisted.bound v (hv.elim id (hlisted.completed v))
    exact ⟨i, rfl⟩
  · by_cases hdone : v ∈ r.completed
    · exact .inl ⟨hdone, hdisjoint v hdone⟩
    · exact .inr ⟨State.mem_incomplete.mpr ⟨mt (hcompleted v).mpr hdone, id, hv⟩, hdone⟩
  · have hturns : ∀ i ∈ c.outcomes.map (·.index), i < Text.indexBound :=
      List.forall_mem_map.mpr hindex
    have hdone := (hlisted.areVariables hturns).2
    refine ⟨hdone.increasing_mergeSort byIndex_completedBefore hlisted.once,
      hlisted.increasing_incomplete hturns, fun bindings completed hbindings hperm => ?_⟩
    simp only [report, r, hdone.mergeSort_perm byIndex_completedBefore hperm,
      hlisted.incomplete_perm hturns hbindings hperm]
  · obtain ⟨os, hos, hentries⟩ := entries_run (start x (.new context) autoFollowUp) turns
    have hturns : r.turns = os := hos
    rwa [hturns]

/-- Two alarms, of which the second has the lower index, and the hints for them. -/
theorem report_partition_alarms :
    let turns : List Turn := [.program ⟨10, "create_alarm()"⟩, .program ⟨2, "create_alarm()"⟩]
    let c := (start alarms (.new .empty) true).run turns
    let r := c.report
    (∀ o ∈ r.turns, o.index < Text.indexBound) ∧ r.turns.map (·.index) = [10, 11, 2, 12] ∧
      (c.state.completed = ["x11", "x12"] ∧ c.state.find? "x10" = some (.object 0) ∧
        c.state.find? "x2" = some (.object 2)) ∧
      Increasing r.completed ∧ Increasing r.incomplete := by
  have hturns : ((start alarms (.new .empty) true).run [.program ⟨10, "create_alarm()"⟩,
      .program ⟨2, "create_alarm()"⟩]).report.turns.map (·.index) = [10, 11, 2, 12] := by
    decide +kernel
  have hindex : ∀ i ∈ [10, 11, 2, 12], i < Text.indexBound := by decide
  rw [← hturns, List.forall_mem_map] at hindex
  obtain ⟨hdone, hopen, -⟩ := (report_partition alarms .empty true
    [.program ⟨10, "create_alarm()"⟩, .program ⟨2, "create_alarm()"⟩]).2.2.2.2.2.1 hindex
  exact ⟨hindex, hturns, by decide +kernel, hdone, hopen⟩

end Conversation

end TaskDialogue
