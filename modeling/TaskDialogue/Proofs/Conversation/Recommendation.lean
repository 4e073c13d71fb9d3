import TaskDialogue.Proofs.Conversation.HintTurn
import TaskDialogue.Proofs.Conversation.Replay

/-!
# The recommendation after a turn

A recommendation is outstanding up to the next call of a task. With follow-ups the next call
is that of the hint which says the recommendation. So a marker on the turn after it follows
nothing, unless the hint fails, and then the conversation is in the state that it would be in
without follow-ups.
-/
namespace TaskDialogue.Conversation

variable {c : Conversation} {domain : List CommandSchema} {expression : String}
  {r : ActionResult} {a : RecommendedAction}

/-- The follow-up of a recommendation is its hint, executed as the next turn. -/
theorem addFollowUp_recommended (c : Conversation) (ha : r.recommendedAction = some a) :
    (c.addFollowUp r).state =
      match c.executor.execute c.nextIndex
        (String.ofList (Syntax.hintText a.hint.toList r.index)) c.state with
      | (.ok _, t) => t
      | (.error _, _) => c.state := by
  simp only [addFollowUp, followUp?_recommended c.nextIndex ha, Turn.program?, attempt]
  generalize c.executor.execute _ _ c.state = executed
  obtain ⟨result, t⟩ := executed
  cases result <;> rfl

/-- A hint that succeeds clears the recommendation that it says. -/
theorem recommendation_addFollowUp (hregistry : c.executor.registry = .ofSchemas domain)
    (hkeeps : c.executor.rewriter.KeepsHints) (ha : r.recommendedAction = some a)
    (hsayable : a.Sayable) (hbound : (c.state.find? (varName r.index)).isSome) :
    (c.addFollowUp r).state.recommendation = none := by
  obtain ⟨_, t, hexecute, hcleared⟩ := Executor.execute_hintText hregistry hkeeps c.nextIndex
    r.index (RecommendedAction.plain_hint.mpr hsayable) hbound
  rw [addFollowUp_recommended c ha, hexecute]
  exact hcleared

/-- A hint that fails leaves the state as it is. -/
theorem state_addFollowUp (hregistry : c.executor.registry = .ofSchemas domain)
    (hkeeps : c.executor.rewriter.KeepsHints) (ha : r.recommendedAction = some a)
    (h : ¬(a.Sayable ∧ (c.state.find? (varName r.index)).isSome)) :
    (c.addFollowUp r).state = c.state := by
  rw [← RecommendedAction.plain_hint] at h
  obtain ⟨_, t, hexecute⟩ := Executor.execute_hintText_error hregistry hkeeps c.nextIndex r.index h
  rw [addFollowUp_recommended c ha, hexecute]

/-- A turn that succeeds is executed and added, before its follow-up is. -/
theorem pushProgram_ok (h : (c.pushProgram expression).1 = .ok r) :
    ∃ c₁ : Conversation, c₁.executor = c.executor ∧
      c.executor.execute c.nextIndex expression c.state = (.ok r, c₁.state) ∧
      (c.pushProgram expression).2 = if c.autoFollowUp then c₁.addFollowUp r else c₁ := by
  simp only [pushProgram, attempt] at h ⊢
  generalize c.executor.execute c.nextIndex expression c.state = executed at h ⊢
  obtain ⟨result, s⟩ := executed
  cases result with
  | error e => simp at h
  | ok result =>
    simp only [Except.ok.injEq] at h
    subst h
    exact ⟨{ c with
      state := s
      turns := c.turns ++ [.program ⟨c.nextIndex, expression⟩]
      outcomes := c.outcomes ++ [⟨c.nextIndex, expression, false, .ok result⟩] }, rfl, rfl, rfl⟩

/-- After a turn with a recommendation and its hint nothing is recommended, and the marker on
a turn has no effect. Only where the hint fails is the recommendation outstanding, as it is
without follow-ups. -/
theorem recommendation_pushProgram (hregistry : c.executor.registry = .ofSchemas domain)
    (hkeeps : c.executor.rewriter.KeepsHints) (hauto : c.autoFollowUp = true)
    (hok : (c.pushProgram expression).1 = .ok r) (ha : r.recommendedAction = some a) :
    let alone := ({ c with autoFollowUp := false }.pushProgram expression).2.state
    let after := (c.pushProgram expression).2.state
    (∃ var, alone.recommendation = some (var, a) ∧ r.index = (varIndex? var).getD c.nextIndex) ∧
      (a.Sayable ∧ (alone.find? (varName r.index)).isSome →
        after.recommendation = none ∧ ∀ turn p,
          c.executor.executeProgram turn p true after =
            c.executor.executeProgram turn p false after) ∧
      (¬(a.Sayable ∧ (alone.find? (varName r.index)).isSome) → after = alone) := by
  intro alone after
  obtain ⟨c₁, hexecutor, hexecute, hpush⟩ := pushProgram_ok hok
  have halone : alone = c₁.state := by
    have hattempt : c.executor.execute { c with autoFollowUp := false }.nextIndex expression
        c.state = (.ok r, c₁.state) := hexecute
    simp only [alone, pushProgram, attempt, hattempt, Bool.false_eq_true, if_false]
  have hafter : after = (c₁.addFollowUp r).state := by
    simp only [after, hpush, hauto, if_true]
  rw [halone, hafter]
  rw [← hexecutor] at hregistry hkeeps
  refine ⟨?_, fun h => ?_, fun h => state_addFollowUp hregistry hkeeps ha h⟩
  · have hok : (c.executor.execute c.nextIndex expression c.state).1 = .ok r := by rw [hexecute]
    have hrecommended := Executor.recommendation_execute hok ha
    rwa [hexecute] at hrecommended
  · have hnone := recommendation_addFollowUp hregistry hkeeps ha h.1 h.2
    exact ⟨hnone, fun turn p => Executor.executeProgram_of_no_recommendation _ turn p hnone true⟩

/-- The hint for an alarm without a time. -/
theorem recommendation_pushProgram_alarms :
    let c := start alarms (.new .empty) true
    let after := (c.pushProgram "create_alarm()").2.state
    (c.pushProgram "create_alarm()").1.toOption = some (.recommended 0 (.askValue "time")) ∧
      after.recommendation = none ∧ ∀ turn p,
        c.executor.executeProgram turn p true after =
          c.executor.executeProgram turn p false after := by
  have hok : let c := start alarms (.new .empty) true
      (c.pushProgram "create_alarm()").1.toOption = some (.recommended 0 (.askValue "time")) := by
    decide +kernel
  have hbound : let c := start alarms (.new .empty) true
      (({ c with autoFollowUp := false }.pushProgram "create_alarm()").2.state.find?
        (varName (ActionResult.recommended 0 (.askValue "time")).index)).isSome := by
    decide +kernel
  have hsayable : (RecommendedAction.askValue "time").Sayable := by
    simp [RecommendedAction.Sayable, RecommendedAction.askValue, RecommendedAction.dialogue,
      IsPlain, IsLineEnd]
  have hcleared : ∀ (c : Conversation) e,
      c.executor.registry = alarms.registry → c.executor.rewriter.KeepsHints →
      c.autoFollowUp = true →
      (c.pushProgram e).1.toOption = some (.recommended 0 (.askValue "time")) →
      (({ c with autoFollowUp := false }.pushProgram e).2.state.find?
        (varName (ActionResult.recommended 0 (.askValue "time")).index)).isSome →
      (c.pushProgram e).2.state.recommendation = none ∧ ∀ turn p,
        c.executor.executeProgram turn p true (c.pushProgram e).2.state =
          c.executor.executeProgram turn p false (c.pushProgram e).2.state := by
    intro c e hregistry hkeeps hauto hok hbound
    cases hresult : (c.pushProgram e).1 with
    | error cause => simp [hresult, Except.toOption] at hok
    | ok r =>
      simp only [hresult, Except.toOption, Option.some.injEq] at hok
      subst hok
      exact (recommendation_pushProgram hregistry hkeeps hauto hresult rfl).2.1
        ⟨hsayable, hbound⟩
  exact ⟨hok, hcleared _ _ rfl (Rewriter.keepsHints_ofSugars Sugar.defaults) rfl hok hbound⟩

/-- The hint loses the recommendation, so that the task is not told that it was followed. -/
theorem recommendation_lost :
    let first := State.new .empty
    let turns : List Input := [.program "create_alarm()", .program "x0.time = \"8:30\" #y"]
    let told := fun c : Conversation =>
      ((c.feedAll turns).state.command? "x0").map Command.followed
    ((start alarms first true).pushProgram "create_alarm()").1.toOption =
        some (.recommended 0 (.askValue "time")) ∧
      ((start alarms first true).pushProgram "create_alarm()").2.state.recommendation = none ∧
      told (start alarms first true) = some [] ∧ told (start alarms first false) = some ["time"] := by
  decide +kernel

end TaskDialogue.Conversation
