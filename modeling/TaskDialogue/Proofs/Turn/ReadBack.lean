import TaskDialogue.Proofs.Store.ReadBack
import TaskDialogue.Proofs.Turn.Failure
import TaskDialogue.Proofs.Turn.QueryInput
import TaskDialogue.Proofs.Turn.Typing

/-!
# Reading a field after its assignment

An assignment writes to what its variable means as the target of a turn, and a field with an index
is read from the same. Of a bare name the field is read from what the name is bound to. The two are
one object unless the name is bound to a query: then the write goes to the single result of the
query, and the bare name reads the slot of the query, which no turn writes to.
-/
namespace TaskDialogue

namespace State

variable {s : State} {var : String}

/-- Whether a variable is bound to a query. -/
def bindsQuery (s : State) (var : String) : Bool := (s.command? var).any Command.isQuery

theorem bindsQuery_eq_true :
    s.bindsQuery var = true ↔
      ∃ id c, s.find? var = some (.object id) ∧ s.object id = .command c ∧ c.isQuery = true := by
  simp only [bindsQuery, Option.any_eq_true, command?_eq_some]
  exact ⟨fun ⟨c, ⟨id, hfind, hobject⟩, hquery⟩ => ⟨id, c, hfind, hobject, hquery⟩,
    fun ⟨id, c, hfind, hobject, hquery⟩ => ⟨c, ⟨id, hfind, hobject⟩, hquery⟩⟩

end State

namespace Exec

variable {registry : Registry} {policy : MultiTargetPolicy} {turn n : Nat} {s t w : State}
  {var attr : String} {index : Option Int64} {target : TaskRef} {v : Value} {e : Expr}
  {r : ActionResult}

/-- To recommend what a task asks for changes no object, and no more does it to perform what is
not a query. -/
theorem objects_performOrRecommend (hresolve : s.resolve var index = .ok target) :
    (performOrRecommend var n target s).2.objects = s.objects := by
  obtain ⟨_, -, h⟩ | ⟨-, ⟨_, -, h⟩ | ⟨output, changed, hperform, h⟩⟩ :=
    performOrRecommend_cases var n target s
  · rw [h]
  · rw [h]
  · have hsame : changed = s.task target := by
      obtain hsame | ⟨c, entity, hc, hkind, -, -⟩ := TaskObject.perform_cases hperform
      · exact hsame
      · have hquery := isQuery_of_resolve hresolve hc
        simp [Command.isQuery, hkind, CommandKind.isQuery] at hquery
    have hkept := congrArg State.objects (State.setTask_task { s with recommendation := none } target)
    rw [h, hsame]
    exact hkept

/-- What is assigned through a variable is read from what the variable means then. -/
theorem runKind_assigned {context : AppContext} (hs : s.Typed registry context)
    (h : runKind var n (.assignment [⟨attr, index, v⟩]) s = (.ok r, t)) :
    ∃ target, s.resolve var index = .ok target ∧ t.resolve var index = .ok target ∧
      (t.task target).get attr = .ok v := by
  have hfind := find?_runKind var n (.assignment [⟨attr, index, v⟩]) s var
  rw [h] at hfind
  simp only [runKind, applyUpdates] at h
  cases hresolve : s.resolve var index with
  | error e => simp [hresolve] at h
  | ok target =>
    cases hset : (s.task target).set attr v with
    | error e => simp [hresolve, hset] at h
    | ok changed =>
      simp only [hresolve, hset] at h
      have hafter : (s.setTask target changed).resolve var index = .ok target := by
        rw [State.resolve_setTask (TaskObject.set_written hset), hresolve]
      have hobjects := objects_performOrRecommend (n := n) hafter
      rw [h] at hobjects
      have hobject : ∀ id, t.object id = (s.setTask target changed).object id := fun id => by
        rw [State.object, State.object, hobjects]
      refine ⟨target, rfl, ?_, ?_⟩
      · rw [← hafter]
        refine State.resolve_congr (s := s.setTask target changed) hfind (fun id => ?_) index
        rw [hobject]
        exact .refl _
      · rw [State.task, hobject]
        exact hs.get_setTask (lt_of_set hset) hset

/-- An assignment to one field is a call on its variable, with an index or without. -/
theorem classify_assignTarget (policy : MultiTargetPolicy) (turn : Nat) {target value : Expr}
    (span : Span) (htarget : assignmentTarget target = .ok (var, index, attr))
    (h : eval registry value s = (.ok v, w)) :
    classify registry policy turn ⟨[.assign target value span]⟩ s =
      (.ok (.on var turn (.assignment [⟨attr, index, v⟩])), w) := by
  simp [classify, classifyStmt, classifyAssignment, assignmentGroups, htarget, h, addUpdate,
    selectGroup]

/-- Whether a field is read from what a name is bound to. -/
def readsBinding : Expr → Bool
  | .field (.name _ _) _ _ => true
  | _ => false

/-- A field is read from what its variable means as a target, and of a bare name when this is not
one of several results. -/
theorem eval_of_resolve (htarget : assignmentTarget e = .ok (var, index, attr))
    (hresolve : s.resolve var index = .ok target) (hget : (s.task target).get attr = .ok v)
    (hwhole : readsBinding e = true → target.entity = none) :
    eval registry e s = (.ok v, s) := by
  have hlookup : s.lookup var = .ok (.object target.id) := by
    rw [State.lookup, (State.resolve_cases hresolve).1]
  unfold assignmentTarget at htarget
  split at htarget
  · simp only [Except.ok.injEq, Prod.mk.injEq] at htarget
    obtain ⟨rfl, rfl, rfl⟩ := htarget
    rw [State.task, hwhole rfl, TaskObject.part_none] at hget
    simp only [eval, evalField, hlookup, bind, Except.bind, hget]
  · obtain ⟨i, hi, htarget⟩ := bind_eq_ok.mp htarget
    simp only [pure, Except.pure, Except.ok.injEq, Prod.mk.injEq] at htarget
    obtain ⟨rfl, rfl, rfl⟩ := htarget
    simp only [eval, evalField, hi, hlookup, hresolve, bind, Except.bind, hget]
  · cases htarget

/-- A query that is the same but for what it has found and been told reads the same. -/
theorem evalField_name (hs : t.find? var = s.find? var) {id : Nat} {c : Command}
    (hfind : s.find? var = some (.object id)) (hobject : s.object id = .command c)
    (ht : t.HoldsTask id c) (nameSpan : Span) :
    evalField t (.name var nameSpan) attr = evalField s (.name var nameSpan) attr := by
  obtain ⟨results, followed, hobject'⟩ := ht
  simp only [evalField, State.lookup, hs, hfind, bind, Except.bind, hobject, hobject']
  rfl

end Exec

namespace Executor

variable {x : Executor} {s t u : State} {turn : Nat} {text var attr : String} {call : Call}
  {index : Option Int64} {target : TaskRef}

/-- What a turn acts on is a result of a query only where its variable was bound to the query
before the turn. -/
theorem entity_of_resolve (hcall : x.call? turn text s = some (call, u))
    (hresolve : u.resolve var index = .ok target) (hquery : s.bindsQuery var = false) :
    target.entity = none := by
  obtain ⟨-, hbindings, -, hresults⟩ := call?_cases hcall
  obtain ⟨hfind, ⟨c, position, hc, hisQuery, hindex, -⟩ | ⟨-, hnone, -⟩⟩ :=
    State.resolve_cases hresolve
  · exfalso
    have hlt := Command.lt_of_entityIndex hindex
    have hcount := hresults target.id
    rw [hc] at hcount
    cases hobject : s.object target.id with
    | entity e =>
      rw [hobject] at hcount
      exact absurd hcount (Nat.ne_of_gt (Nat.zero_lt_of_lt hlt))
    | command d =>
      have hsame : d.isQuery = c.isQuery := by
        obtain hkept | ⟨action, hnotified⟩ :=
          (call?_objects hcall).2.2 target.id (State.lt_of_object_command hobject)
        · rw [hc, hobject] at hkept
          rw [TaskObject.command.inj hkept]
        · rw [hc, hobject] at hnotified
          rw [TaskObject.command.inj hnotified]
          rfl
      have hbinds : s.bindsQuery var = true := by
        refine State.bindsQuery_eq_true.mpr ⟨target.id, d, ?_, hobject, hsame.trans hisQuery⟩
        rw [← hfind, State.find?, State.find?, hbindings]
      simp [hquery] at hbinds
  · exact hnone

variable {context : AppContext} {p : Program} {followed : Bool} {assigned value e : Expr}
  {span : Span} {v : Value} {r : ActionResult}

/-- The call of an assignment to one field. -/
theorem call?_assign (turn : Nat) (hprepare : x.prepare text = .ok (p, followed))
    (hbody : p.body = [.assign assigned value span])
    (htarget : Exec.assignmentTarget assigned = .ok (var, index, attr))
    (hv : (Exec.eval x.registry value s).1 = .ok v) :
    ∃ u, x.call? turn text s = some (.on var turn (.assignment [⟨attr, index, v⟩]), u) := by
  obtain ⟨body⟩ := p
  obtain rfl : body = _ := hbody
  have hclassify := Exec.classify_assignTarget x.options.multiTargetPolicy turn span htarget
    (Prod.ext hv rfl)
  exact ⟨_, by simp only [call?, hprepare, classify, hclassify]; rfl⟩

/-- The state that a call is applied to is typed where the state before the turn was. -/
theorem typed_call? (hs : s.Typed x.registry context) (hcall : x.call? turn text s = some (call, u)) :
    u.Typed x.registry context := by
  unfold call? at hcall
  split at hcall
  · cases hcall
  · next p followed _ =>
    have hclassify := (Exec.typed_turn x.registry context s).classify x.options.multiTargetPolicy
      turn p ⟨hs, .refl s⟩
    split at hcall
    · cases hcall
    · next heq =>
      obtain ⟨rfl, rfl⟩ := Prod.mk.inj (Option.some.inj hcall)
      rw [classify] at heq
      rw [heq] at hclassify
      cases followed with
      | false => exact hclassify.state.1
      | true => exact hclassify.state.1.followRecommendation.1

/-- The states of a session are typed, after turns as after going back. -/
theorem typed_run (x : Executor) (context : AppContext) (steps : List Session.Step) :
    ((Session.start context).run x steps).state.Typed x.registry context := by
  have hturn : ∀ index text s, State.Typed x.registry context s →
      (x.execute index text s).2.Typed x.registry context := fun index text s hs =>
    ((Exec.typed_turn x.registry context s).execute index text ⟨hs, .refl s⟩).1
  exact Session.state_run hturn (State.typed_new x.registry context) steps

/-- In the states of a session a field that an assignment has written reads as the value assigned,
through an expression for the same field. The bare name of a query is the exception: its field reads
as it did before the turn, since the write went to the single result of the query. -/
theorem read_after_assign {steps : List Session.Step}
    (hs : s = ((Session.start context).run x steps).state)
    (hprepare : x.prepare text = .ok (p, followed))
    (hbody : p.body = [.assign assigned value span])
    (htarget : Exec.assignmentTarget assigned = .ok (var, index, attr))
    (hv : (Exec.eval x.registry value s).1 = .ok v)
    (h : x.execute turn text s = (.ok r, t)) :
    (∀ e, Exec.assignmentTarget e = .ok (var, index, attr) →
        (Exec.readsBinding e = true → s.bindsQuery var = false) →
          Exec.eval x.registry e t = (.ok v, t)) ∧
      (s.bindsQuery var = true → ∀ nameSpan fieldSpan,
        (Exec.eval x.registry (.field (.name var nameSpan) attr fieldSpan) t).1 =
          (Exec.eval x.registry (.field (.name var nameSpan) attr fieldSpan) s).1) := by
  have htyped : s.Typed x.registry context := hs ▸ typed_run x context steps
  obtain ⟨u, hcall⟩ := call?_assign turn hprepare hbody htarget hv
  have hexecute := h
  rw [execute_of_call hcall] at hexecute
  obtain ⟨target, hbefore, hafter, hget⟩ := Exec.runKind_assigned (typed_call? htyped hcall) hexecute
  refine ⟨fun e he hbare => ?_, fun hquery nameSpan fieldSpan => ?_⟩
  · exact Exec.eval_of_resolve he hafter hget fun hbinding =>
      entity_of_resolve hcall hbefore (hbare hbinding)
  · obtain ⟨id, c, hfind, hobject, hisQuery⟩ := State.bindsQuery_eq_true.mp hquery
    have hkept : t.find? var = s.find? var := calc
      t.find? var = some (.object target.id) := (State.resolve_cases hafter).1
      _ = u.find? var := (State.resolve_cases hbefore).1.symm
      _ = s.find? var := by rw [State.find?, State.find?, (call?_cases hcall).2.1]
    have hholds := (State.HoldsTask.steps hisQuery).execute x turn text (.of_object hobject)
    rw [h] at hholds
    exact Exec.evalField_name hkept hfind hobject hholds nameSpan

/-- A search that has found one alarm, whose label is changed. -/
theorem read_after_assign_alarm :
    let alarms : AppContext := ⟨[("Alarm", [⟨"Alarm", [("label", .str "wake")]⟩])]⟩
    let x : Executor := ⟨.ofSchemas [.query ⟨"Alarm", [("label", .str)]⟩], Sugar.defaults, .defaults⟩
    let s := ((Session.start alarms).run x [.turn 0 "find_alarm()"]).state
    let ended := x.execute 1 "x0.label = \"run\"" s
    let bare : Expr := .field (.name "x0" ⟨0, 2⟩) "label" ⟨0, 8⟩
    let result : Expr := .field (.subscript (.name "x0" ⟨0, 2⟩) (.none ⟨3, 7⟩) ⟨0, 8⟩) "label" ⟨0, 14⟩
    (∃ r, ended.1 = .ok r) ∧ s.bindsQuery "x0" = true ∧
      Exec.eval x.registry result ended.2 = (.ok (.str "run"), ended.2) ∧
      (Exec.eval x.registry bare ended.2).1 = (Exec.eval x.registry bare s).1 := by
  intro alarms x s ended bare result
  have hprepare : x.prepare "x0.label = \"run\"" =
      .ok (⟨[.assign bare (.str "run" ⟨11, 16⟩) ⟨0, 16⟩]⟩, false) := by
    decide +kernel
  have hv : (Exec.eval x.registry (.str "run" ⟨11, 16⟩) s).1 = .ok (.str "run") := by rw [Exec.eval]
  have hquery : s.bindsQuery "x0" = true := by decide +kernel
  have hsome : ended.1.toOption.isSome = true := by decide +kernel
  have hs : s = ((Session.start alarms).run x [.turn 0 "find_alarm()"]).state := rfl
  have hended : x.execute 1 "x0.label = \"run\"" s = ended := rfl
  clear_value ended s
  obtain ⟨outcome, t⟩ := ended
  cases outcome with
  | error e => simp [Except.toOption] at hsome
  | ok r =>
    have hread := read_after_assign hs hprepare rfl rfl hv hended
    have hindexed : Exec.readsBinding result = false := rfl
    exact ⟨⟨r, rfl⟩, hquery, hread.1 result rfl (by simp [hindexed]), hread.2 hquery _ _⟩

/-- The alarm that was found has the label, and the search does not. -/
theorem assigned_not_read_by_name :
    let alarms : AppContext := ⟨[("Alarm", [⟨"Alarm", [("label", .str "wake")]⟩])]⟩
    let x : Executor := ⟨.ofSchemas [.query ⟨"Alarm", [("label", .str)]⟩], Sugar.defaults, .defaults⟩
    let s := ((Session.start alarms).run x [.turn 0 "find_alarm()"]).state
    let bare : Expr := .field (.name "x0" ⟨0, 2⟩) "label" ⟨0, 8⟩
    let value : Expr := .str "run" ⟨11, 16⟩
    x.prepare "x0.label = \"run\"" = .ok (⟨[.assign bare value ⟨0, 16⟩]⟩, false) ∧
      (Exec.eval x.registry value s).1 = .ok (.str "run") ∧
      (x.execute 1 "x0.label = \"run\"" s).1.toOption.isSome = true ∧
      (Exec.eval x.registry bare (x.execute 1 "x0.label = \"run\"" s).2).1 ≠ .ok (.str "run") := by
  decide +kernel

end Executor

end TaskDialogue
