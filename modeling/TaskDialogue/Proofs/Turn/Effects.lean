import TaskDialogue.Proofs.Turn.Allocation
import TaskDialogue.Proofs.Turn.Protocol
import TaskDialogue.Exec.Executor

/-!
# What a turn changes

A turn makes commands while it is classified, notes that a recommendation was followed, and
applies its call. Hence it binds its own variable and no other, it completes only what it
performs, and results appear only where something was performed.
-/
namespace TaskDialogue

namespace Exec

/-- A command that has found nothing. -/
def Unperformed (c : Command) : Prop := c.results = []

/-- Classification makes commands that have found nothing. -/
theorem classify_makes (registry : Registry) (policy : MultiTargetPolicy) (turn : Nat)
    (p : Program) (s : State) : Makes Unperformed s (classify registry policy turn p s).2 :=
  (classify_builds registry policy turn p s).imp fun _ hc => hc.results

theorem Makes.resultCount {s t : State} (h : Makes Unperformed s t) (id : Nat) :
    (t.object id).resultCount = (s.object id).resultCount := by
  obtain hsame | ⟨c, hc, hid, hmade⟩ := h.object_cases id
  · rw [hsame]
  · rw [hmade, State.object_of_le hid, TaskObject.resultCount, hc]
    rfl

/-- The call of a state is one of the state too in which a recommendation was followed. -/
theorem Classified.followRecommendation {turn : Nat} {s : State} {call : Call}
    (h : Classified turn s call) : Classified turn s.followRecommendation call := by
  have hfind : ∀ v, s.followRecommendation.find? v = s.find? v := fun v => by simp [State.find?]
  refine ⟨h.on, by simpa using h.command, by simpa only [hfind] using h.assigned,
    fun value hvalue => ?_⟩
  rw [hfind]
  refine h.bound value ?_
  rw [← hvalue]
  simp only [bound?, State.nextId, State.length_followRecommendation]

end Exec

namespace Executor

/-- The call of a turn text, and the state that it is applied to. -/
def call? (x : Executor) (turn : Nat) (text : String) (s : State) : Option (Call × State) :=
  match x.prepare text with
  | .error _ => none
  | .ok (p, followed) =>
    match x.classify turn p s with
    | (.error _, _) => none
    | (.ok call, s) => some (call, if followed then s.followRecommendation else s)

/-- The task that a turn performs. -/
def performance? (x : Executor) (turn : Nat) (text : String) (s : State) : Option TaskRef :=
  (x.call? turn text s).bind fun r => Exec.performance? r.1.var r.1.kind r.2

variable {x : Executor} {turn : Nat} {text : String} {s u : State} {call : Call}

theorem execute_of_call (h : x.call? turn text s = some (call, u)) :
    x.execute turn text s = Exec.runKind call.var call.index call.kind u := by
  unfold call? at h
  split at h
  · simp at h
  · next p followed hprepare =>
    split at h
    · simp at h
    · next hclassify =>
      simp only [Option.some.injEq, Prod.mk.injEq] at h
      obtain ⟨rfl, rfl⟩ := h
      simp only [execute, hprepare, executeProgram, hclassify, Exec.run]

/-- A turn without a call fails, and leaves at most some new commands behind. -/
theorem execute_of_no_call (h : x.call? turn text s = none) :
    (∃ e, (x.execute turn text s).1 = .error e) ∧
      Exec.Makes Exec.Unperformed s (x.execute turn text s).2 := by
  unfold call? at h
  split at h
  · next hprepare =>
    simp only [execute, hprepare]
    exact ⟨⟨_, rfl⟩, .refl _ s⟩
  · next p followed hprepare =>
    have hmakes := Exec.classify_makes x.registry x.options.multiTargetPolicy turn p s
    split at h
    · next hclassify =>
      simp only [execute, hprepare, executeProgram, hclassify]
      rw [classify] at hclassify
      rw [hclassify] at hmakes
      exact ⟨⟨_, rfl⟩, hmakes⟩
    · simp at h

/-- To find the call of a turn makes commands at most, and then the task of the outstanding
recommendation may be told that it was followed. -/
theorem call?_made (h : x.call? turn text s = some (call, u)) :
    ∃ w, Exec.Makes Exec.Unperformed s w ∧ Exec.Classified turn w call ∧
      (u = w ∨ u = w.followRecommendation) := by
  unfold call? at h
  split at h
  · simp at h
  · next p followed _ =>
    have hmakes := Exec.classify_makes x.registry x.options.multiTargetPolicy turn p s
    split at h
    · simp at h
    · next call' w heq =>
      simp only [Option.some.injEq, Prod.mk.injEq] at h
      obtain ⟨rfl, rfl⟩ := h
      have hclassified := Exec.classify_classified heq
      rw [classify] at heq
      rw [heq] at hmakes
      cases followed with
      | false => exact ⟨w, hmakes, hclassified, .inl rfl⟩
      | true => exact ⟨w, hmakes, hclassified, .inr rfl⟩

/-- The state that a call is applied to has the bindings, the results and the completed
variables of the state before the turn. -/
theorem call?_cases (h : x.call? turn text s = some (call, u)) :
    Exec.Classified turn u call ∧ u.bindings = s.bindings ∧ u.completed = s.completed ∧
      ∀ id, (u.object id).resultCount = (s.object id).resultCount := by
  obtain ⟨w, hmakes, hclassified, rfl | rfl⟩ := call?_made h
  · exact ⟨hclassified, by rw [hmakes.rest], by rw [hmakes.rest], hmakes.resultCount⟩
  · have hbindings : w.bindings = s.bindings := by rw [hmakes.rest]
    have hcompleted : w.completed = s.completed := by rw [hmakes.rest]
    refine ⟨hclassified.followRecommendation, by simpa using hbindings, by simpa using hcompleted,
      fun id => ?_⟩
    rw [← hmakes.resultCount id]
    obtain hsame | ⟨_, _, -, -, hnotified⟩ := w.object_followRecommendation id
    · rw [hsame]
    · rw [hnotified, TaskObject.resultCount_notify]

/-- What is recommended is the same when the call is applied, and each object of before is there,
told at most that a recommendation was followed. -/
theorem call?_objects (h : x.call? turn text s = some (call, u)) :
    u.recommendation = s.recommendation ∧ s.objects.length ≤ u.objects.length ∧
      ∀ id, id < s.objects.length →
        u.object id = s.object id ∨ ∃ action, u.object id = (s.object id).notify action := by
  obtain ⟨w, hmakes, -, hu⟩ := call?_made h
  have hrecommendation : w.recommendation = s.recommendation := by rw [hmakes.rest]
  have hlength : s.objects.length ≤ w.objects.length := by
    obtain ⟨made, -, rfl⟩ := hmakes
    simp
  obtain rfl | rfl := hu
  · exact ⟨hrecommendation, hlength, fun id hid => .inl (hmakes.object_of_lt hid)⟩
  · refine ⟨by simpa using hrecommendation, by simpa using hlength, fun id hid => ?_⟩
    rw [← hmakes.object_of_lt hid]
    obtain hsame | ⟨_, action, -, -, hnotified⟩ := w.object_followRecommendation id
    · exact .inl hsame
    · exact .inr ⟨action.name, hnotified⟩

/-- A turn binds its own variable and no other. -/
theorem find?_execute (x : Executor) (turn : Nat) (text : String) (s : State) (v : String) :
    (x.execute turn text s).2.find? v = s.find? v ∨
      (v = varName turn ∧ ((x.execute turn text s).2.find? v).isSome) := by
  cases hcall : x.call? turn text s with
  | none =>
    rw [(execute_of_no_call hcall).2.rest]
    exact .inl rfl
  | some r =>
    obtain ⟨call, u⟩ := r
    obtain ⟨hclassified, hbindings, -, -⟩ := call?_cases hcall
    have hu : ∀ w, u.find? w = s.find? w := fun w => by simp [State.find?, hbindings]
    rw [execute_of_call hcall, Exec.find?_runKind, ← hu v]
    cases hbound : Exec.bound? u call.kind with
    | none => exact .inl rfl
    | some value =>
      by_cases hv : call.var = v
      · simp only [hv, if_true]
        obtain hturn | hsame := hclassified.bound value hbound
        · exact .inr ⟨hv ▸ hturn, rfl⟩
        · exact .inl (hv ▸ hsame.symm)
      · simp [hv]

/-- What a turn completes it has performed, through a variable that is bound to it. -/
theorem completed_execute {v : String} (h : v ∈ (x.execute turn text s).2.completed) :
    v ∈ s.completed ∨
      ∃ target, x.performance? turn text s = some target ∧
        (x.execute turn text s).2.find? v = some (.object target.id) ∧
        (target.entity = none ∨ (s.object target.id).resultCount ≠ 0) := by
  cases hcall : x.call? turn text s with
  | none =>
    rw [(execute_of_no_call hcall).2.rest] at h
    exact .inl h
  | some r =>
    obtain ⟨call, u⟩ := r
    obtain ⟨hclassified, -, hcompleted, hresults⟩ := call?_cases hcall
    rw [execute_of_call hcall] at h ⊢
    rw [performance?, hcall, Option.bind_some, ← hcompleted]
    simpa only [hresults] using Exec.completed_runKind hclassified.assigned h

/-- What was completed before a turn is completed after it. -/
theorem completed_execute_mono {v : String} (h : v ∈ s.completed) :
    v ∈ (x.execute turn text s).2.completed := by
  cases hcall : x.call? turn text s with
  | none => rwa [(execute_of_no_call hcall).2.rest]
  | some r =>
    obtain ⟨call, u⟩ := r
    obtain ⟨hclassified, -, hcompleted, -⟩ := call?_cases hcall
    rw [execute_of_call hcall]
    exact Exec.completed_runKind_mono hclassified.assigned (hcompleted ▸ h)

/-- Results are found by performing what has them then. -/
theorem resultCount_execute {id : Nat}
    (h : ((x.execute turn text s).2.object id).resultCount ≠ 0) :
    (s.object id).resultCount ≠ 0 ∨ x.performance? turn text s = some ⟨id, none⟩ := by
  cases hcall : x.call? turn text s with
  | none =>
    rw [(execute_of_no_call hcall).2.resultCount] at h
    exact .inl h
  | some r =>
    obtain ⟨call, u⟩ := r
    obtain ⟨hclassified, -, -, hresults⟩ := call?_cases hcall
    rw [execute_of_call hcall] at h
    rw [performance?, hcall, Option.bind_some, ← hresults]
    exact Exec.resultCount_runKind hclassified.assigned h

/-- What a turn recommends is outstanding after it, for the variable that it acted on. -/
theorem recommendation_execute {r : ActionResult} {a : RecommendedAction}
    (h : (x.execute turn text s).1 = .ok r) (ha : r.recommendedAction = some a) :
    ∃ var, (x.execute turn text s).2.recommendation = some (var, a) ∧
      r.index = (varIndex? var).getD turn := by
  cases hcall : x.call? turn text s with
  | none =>
    obtain ⟨⟨e, he⟩, -⟩ := execute_of_no_call hcall
    simp [he] at h
  | some c =>
    obtain ⟨call, u⟩ := c
    have hon := (call?_cases hcall).1.on
    rw [execute_of_call hcall] at h ⊢
    cases hprotocol : Exec.protocolTask? call.var call.kind u with
    | none => simp [(Exec.runKind_of_none call.index hprotocol).2.1 r h] at ha
    | some p =>
      obtain ⟨target, w⟩ := p
      rw [Exec.runKind_of_protocolTask call.index hprotocol] at h ⊢
      obtain ⟨action, -, hr⟩ | ⟨-, ⟨_, -, hr⟩ | ⟨_, _, -, hr⟩⟩ :=
        Exec.performOrRecommend_cases call.var call.index target w
      · rw [hr] at h ⊢
        simp only [Except.ok.injEq] at h
        subst h
        simp only [ActionResult.recommended, Option.some.injEq] at ha
        refine ⟨call.var, by rw [ha], ?_⟩
        exact congrArg Call.index hon
      · simp [hr] at h
      · rw [hr] at h
        simp only [Except.ok.injEq] at h
        simp [← h, ActionResult.performed] at ha

/-- The marker on a turn has no effect when nothing is recommended. -/
theorem executeProgram_of_no_recommendation (x : Executor) (turn : Nat) (p : Program)
    (h : s.recommendation = none) (followed : Bool) :
    x.executeProgram turn p followed s = x.executeProgram turn p false s := by
  have hmakes := Exec.classify_makes x.registry x.options.multiTargetPolicy turn p s
  simp only [executeProgram, classify]
  split
  · rfl
  · next call u heq =>
    replace hmakes : Exec.Makes Exec.Unperformed s u := by rwa [heq] at hmakes
    have hu : u.followRecommendation = u := by
      have hnone : u.recommendation = none := by rw [hmakes.rest, h]
      rw [State.followRecommendation, hnone]
    simp only [Exec.run, hu, ite_self]

end Executor

end TaskDialogue
