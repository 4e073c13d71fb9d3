import TaskDialogue.Proofs.Conversation.Completion
import TaskDialogue.Proofs.Conversation.Outstanding
import TaskDialogue.Proofs.Turn.Settled

/-!
# Once completed

A task may be written to after it was performed. As long as nothing that it needs is taken back,
its variable is recommended nothing any more. To empty a required slot is to take something back:
then the task asks again, and its variable is completed all the same.
-/
namespace TaskDialogue

namespace State

variable {s : State} {v : String}

/-- What is kept by turns that find their own variable unbound: only variables of turns are bound,
what is recommended is up to date, and what has results asks for nothing. -/
structure Orderly (s : State) : Prop where
  named : ∀ v, (s.find? v).isSome → ∃ k, v = varName k
  current : s.Current
  found : s.Found

theorem orderly_new (context : AppContext) : (new context).Orderly :=
  ⟨by simp [new, find?, findIn], current_new context, found_new context⟩

theorem Settled.not_recommended (h : s.Settled v) (hs : s.Current) (a : RecommendedAction) :
    s.recommendation ≠ some (v, a) := by
  intro hrecommended
  obtain ⟨c, hc, hasks⟩ := hs v a hrecommended
  obtain ⟨id, hfind, hobject⟩ := command?_eq_some.mp hc
  obtain ⟨place, hplace, -, hnothing⟩ := h.asks
  rw [hfind, Option.some.injEq, Value.object.injEq] at hplace
  subst hplace
  rw [hobject] at hnothing
  rw [TaskObject.recommend?, hasks] at hnothing
  cases hnothing

end State

namespace Executor

/-- Whether one of the turns takes something back that the command of a completed variable
needs. -/
def reopens (x : Executor) (v : String) : List (Nat × String) → State → Bool
  | [], _ => false
  | (turn, text) :: rest, s =>
    (s.completed.contains v && x.withdraws v turn text s) ||
      x.reopens v rest (x.execute turn text s).2

variable {x : Executor} {turn : Nat} {text : String} {s t : State} {v : String}
  {r : ActionResult} {a : RecommendedAction} {lines : List (Nat × String)}
  {results : List ActionResult}

theorem orderly_execute (hfresh : s.find? (varName turn) = none)
    (hok : (x.execute turn text s).1 = .ok r) (hs : s.Orderly) :
    (x.execute turn text s).2.Orderly where
  named v hv := by
    obtain hsame | ⟨rfl, -⟩ := find?_execute x turn text s v
    · exact hs.named v (hsame ▸ hv)
    · exact ⟨turn, rfl⟩
  current := current_execute hfresh hok hs.current
  found := found_execute _ _ _ hs.found

/-- A turn recommends nothing for a variable that is done before it and after it. -/
theorem recommended_ne (hfresh : s.find? (varName turn) = none)
    (hok : (x.execute turn text s).1 = .ok r) (ha : r.recommendedAction = some a)
    (hs : s.Orderly) (hbefore : s.Settled v) (hafter : (x.execute turn text s).2.Settled v) :
    varName r.index ≠ v := by
  have ht := orderly_execute hfresh hok hs
  obtain ⟨var, hrecommended, hindex⟩ := recommendation_execute hok ha
  obtain ⟨c, hc, -⟩ := ht.current var a hrecommended
  obtain ⟨id, hfind, -⟩ := State.command?_eq_some.mp hc
  obtain ⟨k, rfl⟩ := ht.named var (by simp [hfind])
  rintro rfl
  rw [hindex] at hbefore hafter
  cases hk : varIndex? (varName k) with
  | none =>
    obtain ⟨id, hbound, -⟩ := hbefore.asks
    simp [hk, hfresh] at hbound
  | some j =>
    rw [hk, varIndex?_varName hk] at hafter
    exact hafter.not_recommended ht.current a hrecommended

/-- What was completed is done, if nothing was taken back from it since. -/
theorem settled_of_executeAll (hfresh : x.Fresh lines s)
    (h : x.executeAll lines s = (.ok results, t)) (hs : s.Orderly)
    (hdone : v ∈ s.completed → s.Settled v) (hkeep : x.reopens v lines s = false)
    (hv : v ∈ t.completed) : t.Settled v := by
  induction lines generalizing s results with
  | nil =>
    simp only [executeAll, Prod.mk.injEq] at h
    exact h.2 ▸ hdone (h.2 ▸ hv)
  | cons line lines ih =>
    obtain ⟨turn, text⟩ := line
    obtain ⟨r, rest, hok, hrest, -⟩ := executeAll_cons_ok h
    simp only [reopens, Bool.or_eq_false_iff, Bool.and_eq_false_imp] at hkeep
    refine ih hfresh.2 hrest (orderly_execute hfresh.1 hok hs) (fun hcompleted => ?_) hkeep.2
    by_cases hbefore : v ∈ s.completed
    · exact settled_execute hfresh.1 hok (hkeep.1 (by simpa using hbefore)) (hdone hbefore)
    · exact settled_of_completed hok hs.found hbefore hcompleted

/-- What is done stays so as long as nothing is taken back from it, and nothing is recommended
for it. -/
theorem settled_executeAll (hfresh : x.Fresh lines s)
    (h : x.executeAll lines s = (.ok results, t)) (hs : s.Orderly) (hdone : s.Settled v)
    (hkeep : x.reopens v lines s = false) :
    t.Settled v ∧ ∀ r ∈ results, r.recommendedAction.isSome → varName r.index ≠ v := by
  induction lines generalizing s results with
  | nil =>
    simp only [executeAll, Prod.mk.injEq, Except.ok.injEq] at h
    obtain ⟨rfl, rfl⟩ := h
    exact ⟨hdone, List.forall_mem_nil _⟩
  | cons line lines ih =>
    obtain ⟨turn, text⟩ := line
    obtain ⟨r, rest, hok, hrest, rfl⟩ := executeAll_cons_ok h
    simp only [reopens, Bool.or_eq_false_iff, Bool.and_eq_false_imp] at hkeep
    have hstays := settled_execute hfresh.1 hok (hkeep.1 (by simpa using hdone.completed)) hdone
    obtain ⟨hlast, hnone⟩ := ih hfresh.2 hrest (orderly_execute hfresh.1 hok hs) hstays hkeep.2
    refine ⟨hlast, List.forall_mem_cons.mpr ⟨fun ha => ?_, hnone⟩⟩
    obtain ⟨a, ha⟩ := Option.isSome_iff_exists.mp ha
    exact recommended_ne hfresh.1 hok ha hs hdone hstays

end Executor

namespace Conversation

/-- In a conversation that numbers its turns, a variable that was completed stays so, and its task
asks for nothing unless something was taken back from it since. From where it asks for nothing,
and until something is taken back, no turn recommends anything for it. -/
theorem settled_until_withdrawal (x : Executor) (context : AppContext) (autoFollowUp : Bool)
    (pushes : List Push) :
    let first := State.new context
    let c := (start x first autoFollowUp).pushAll pushes
    ∀ done rest v, c.lines = done ++ rest →
      let s := (x.executeAll done first).2
      (v ∈ s.completed → v ∈ c.state.completed ∧
        (x.reopens v done first = false → s.Settled v)) ∧
      (s.Settled v → x.reopens v rest s = false →
        c.state.Settled v ∧ (∀ a, c.state.recommendation ≠ some (v, a)) ∧
          ∀ success ∈ c.successes.drop done.length,
            success.2.recommendedAction.isSome → varName success.2.index ≠ v) := by
  intro first c done rest v hlines s
  have hreplays := replays_pushAll x first autoFollowUp pushes
  have hrun : x.executeAll c.lines first = (.ok (c.successes.map (·.2)), c.state) := hreplays.run
  have hfresh : x.Fresh c.lines first := fresh_pushAll x context autoFollowUp pushes
  rw [hlines] at hrun hfresh
  obtain ⟨results, later, u, hdone, hrest, hresults, hlength⟩ :=
    Executor.executeAll_append_ok hrun
  have hs : s = u := by simp only [s, hdone]
  obtain ⟨hfreshDone, hfreshRest⟩ := Executor.fresh_append hfresh
  replace hfreshRest := hfreshRest results u hdone
  have hordered : u.Orderly := Executor.executeAll_preserves
    (fun _ _ _ _ => Executor.orderly_execute) hfreshDone hdone (State.orderly_new context)
  have hlast : c.state.Orderly := Executor.executeAll_preserves
    (fun _ _ _ _ => Executor.orderly_execute) hfreshRest hrest hordered
  rw [hs]
  refine ⟨fun hcompleted => ⟨Executor.completed_executeAll hrest hcompleted, fun hkeep => ?_⟩,
    fun hsettled hkeep => ?_⟩
  · exact Executor.settled_of_executeAll hfreshDone hdone (State.orderly_new context)
      (by simp [first, State.new]) hkeep hcompleted
  · obtain ⟨hend, hnone⟩ :=
      Executor.settled_executeAll hfreshRest hrest hordered hsettled hkeep
    refine ⟨hend, hend.not_recommended hlast.current, fun success hmem => hnone success.2 ?_⟩
    have hlater : (c.successes.map (·.2)).drop done.length = later := by
      rw [hresults, ← hlength, List.drop_left]
    rw [← hlater, ← List.map_drop]
    exact List.mem_map_of_mem hmem

/-- An alarm is set to another time, and called up again. -/
theorem settled_until_withdrawal_alarms :
    let first := State.new .empty
    let c := (start alarms first false).pushAll [.program "create_alarm(time=\"8:30\")",
      .program "x0.time = \"9:00\"", .user "When does it ring?", .program "x0"]
    let s := (alarms.executeAll (c.lines.take 1) first).2
    (c.lines.length = 3 ∧ "x0" ∈ s.completed ∧ s.Settled "x0") ∧
      c.state.Settled "x0" ∧ (∀ a, c.state.recommendation ≠ some ("x0", a)) ∧
        ∀ success ∈ c.successes.drop (c.lines.take 1).length,
          success.2.recommendedAction.isSome → varName success.2.index ≠ "x0" := by
  have huntil : ∀ pushes,
      let first := State.new .empty
      let c := (start alarms first false).pushAll pushes
      let s := (alarms.executeAll (c.lines.take 1) first).2
      c.lines.length = 3 ∧ "x0" ∈ s.completed →
      alarms.reopens "x0" (c.lines.take 1) first = false →
      alarms.reopens "x0" (c.lines.drop 1) s = false →
      (c.lines.length = 3 ∧ "x0" ∈ s.completed ∧ s.Settled "x0") ∧
        c.state.Settled "x0" ∧ (∀ a, c.state.recommendation ≠ some ("x0", a)) ∧
          ∀ success ∈ c.successes.drop (c.lines.take 1).length,
            success.2.recommendedAction.isSome → varName success.2.index ≠ "x0" := by
    intro pushes first c s hcompleted hbefore hafter
    obtain ⟨hstays, hnone⟩ := settled_until_withdrawal alarms .empty false pushes (c.lines.take 1)
      (c.lines.drop 1) "x0" (List.take_append_drop 1 c.lines).symm
    have hsettled := (hstays hcompleted.2).2 hbefore
    exact ⟨⟨hcompleted.1, hcompleted.2, hsettled⟩, hnone hsettled hafter⟩
  exact huntil _ (by decide +kernel) (by decide +kernel) (by decide +kernel)

/-- To empty the slot of an alarm that was set makes it ask for its time again. -/
theorem settled_taken_back :
    let c := (start alarms (.new .empty) false).pushNext (.program "create_alarm(time=\"8:30\")")
    "x0" ∈ c.state.completed ∧
      (c.pushProgram "x0.time = None").1.toOption = some (.recommended 0 (.askValue "time")) ∧
      (c.pushProgram "x0.time = None").2.state.recommendation = some ("x0", .askValue "time") ∧
      "x0" ∈ (c.pushProgram "x0.time = None").2.state.completed := by
  decide +kernel

end Conversation

end TaskDialogue
