import TaskDialogue.Proofs.Conversation.Pushes
import TaskDialogue.Proofs.Turn.Outcome

/-!
# The outstanding recommendation

What is recommended is what its task asks for, as long as no turn gives a variable another
value. A turn that advances a task recommends what the task asks for then, or recommends
nothing. All other turns leave the task as it is.
-/
namespace TaskDialogue

namespace State

/-- What is recommended, if anything is, is what the command of its variable asks for. -/
def Current (s : State) : Prop :=
  ∀ v a, s.recommendation = some (v, a) → ∃ c, s.command? v = some c ∧ c.recommend? = some a

/-- Only a whole object asks for something. -/
theorem Targets.command {s : State} {v : String} {target : TaskRef} {a : RecommendedAction}
    (h : s.Targets v target) (hasks : (s.task target).recommend? = some a) :
    ∃ c, s.command? v = some c ∧ c.recommend? = some a := by
  obtain ⟨id, entity⟩ := target
  cases entity with
  | some position =>
    obtain ⟨e, he⟩ := TaskObject.part_entity (h.2 position rfl)
    simp [task, he, TaskObject.recommend?] at hasks
  | none =>
    simp only [task, TaskObject.part_none] at hasks
    cases hobject : s.object id with
    | entity e => simp [hobject, TaskObject.recommend?] at hasks
    | command c =>
      rw [hobject] at hasks
      exact ⟨c, command?_eq_some.mpr ⟨id, h.1, hobject⟩, hasks⟩

theorem current_new (context : AppContext) : (new context).Current := by
  simp [Current, new]

end State

namespace Executor

variable {x : Executor} {turn : Nat} {text : String} {s : State}

/-- A turn keeps what is recommended up to date, or recommends something else. -/
theorem current_execute {r : ActionResult} (hfresh : s.find? (varName turn) = none)
    (hok : (x.execute turn text s).1 = .ok r) (hs : s.Current) :
    (x.execute turn text s).2.Current := by
  intro v a hrecommended
  obtain hidles | ⟨call, u, target, w, hadvances, ⟨b, hrecommends⟩ | ⟨output, hperforms⟩⟩ :=
    execute_cases hok
  · obtain ⟨c, hc, hasks⟩ := hs v a (hidles.recommendation ▸ hrecommended)
    obtain ⟨id, hfind, hobject⟩ := State.command?_eq_some.mp hc
    have hafter := hidles.recommend? (State.lt_of_object_command hobject)
    rw [hobject, TaskObject.recommend?, hasks] at hafter
    cases hobject' : (x.execute turn text s).2.object id with
    | entity e => simp [hobject', TaskObject.recommend?] at hafter
    | command d =>
      rw [hobject'] at hafter
      refine ⟨d, State.command?_eq_some.mpr ⟨id, ?_, hobject'⟩, hafter⟩
      rw [find?_execute_of_bound hfresh (by simp [hfind]), hfind]
  · rw [hrecommends.state] at hrecommended ⊢
    simp only [Option.some.injEq, Prod.mk.injEq] at hrecommended
    obtain ⟨rfl, rfl⟩ := hrecommended
    exact hadvances.targets.command hrecommends.asks
  · obtain ⟨changed, -, hstate⟩ := hperforms.state
    rw [hstate] at hrecommended
    simp [State.complete, State.setTask] at hrecommended

end Executor

namespace Conversation

/-- However a conversation that numbers its turns goes on, what is recommended is what the
command of its variable asks for. -/
theorem recommendation_current (x : Executor) (context : AppContext) (autoFollowUp : Bool)
    (pushes : List Push) {v : String} {a : RecommendedAction} :
    let s := ((start x (.new context) autoFollowUp).pushAll pushes).state
    s.recommendation = some (v, a) →
      ∃ id c, s.find? v = some (.object id) ∧ s.object id = .command c ∧ c.recommend? = some a := by
  intro s h
  have hcurrent : s.Current :=
    Executor.executeAll_preserves (fun _ _ _ _ => Executor.current_execute)
      (fresh_pushAll x context autoFollowUp pushes)
      (replays_pushAll x (.new context) autoFollowUp pushes).run (State.current_new context)
  obtain ⟨c, hc, hasks⟩ := hcurrent v a h
  obtain ⟨id, hfind, hobject⟩ := State.command?_eq_some.mp hc
  exact ⟨id, c, hfind, hobject, hasks⟩

/-- A second alarm asks for its time, after words and a line that fails. -/
theorem recommendation_current_alarms :
    let s := ((start alarms (.new .empty) false).pushAll [.program "create_alarm(time=\"8:30\")",
      .user "And another one.", .program "create_alarm()", .program "x1.time = 7"]).state
    s.recommendation = some ("x1", .askValue "time") ∧
      ∃ id c, s.find? "x1" = some (.object id) ∧ s.object id = .command c ∧
        c.recommend? = some (.askValue "time") := by
  have h : ((start alarms (.new .empty) false).pushAll [.program "create_alarm(time=\"8:30\")",
      .user "And another one.", .program "create_alarm()",
      .program "x1.time = 7"]).state.recommendation = some ("x1", .askValue "time") := by
    decide +kernel
  exact ⟨h, recommendation_current alarms .empty false _ h⟩

end Conversation

end TaskDialogue
