import TaskDialogue.Proofs.Conversation.Bindings
import TaskDialogue.Proofs.Store.ReadBack
import TaskDialogue.Proofs.Turn.Sugar

/-!
# Resuming twice

To resume a variable runs the protocol of its task from where it stands, or gives its value again.
A task that asks for something goes on asking for it, a task that fails goes on failing, and a task
that was performed asks for nothing and is performed to the same effect. So to resume a second time
gives and leaves what the first time gave and left.
-/
namespace TaskDialogue

theorem Command.perform_perform {c c' : Command} {context : AppContext} {output : Option ActionOutput}
    (h : c.perform context = .ok (output, c')) : c'.perform context = .ok (output, c') := by
  obtain ⟨-, rfl⟩ | ⟨entity, hkind, -, rfl⟩ := perform_cases h
  · exact h
  · simp only [perform, hkind] at h ⊢
    split at h
    · simp at h
    · next hfound => simpa [hfound] using h

/-- To perform a task again finds what it found, and changes nothing more. -/
theorem TaskObject.perform_perform {o o' : TaskObject} {context : AppContext}
    {output : Option ActionOutput} (h : o.perform context = .ok (output, o')) :
    o'.perform context = .ok (output, o') := by
  cases o with
  | entity e =>
    simp only [perform, Except.ok.injEq, Prod.mk.injEq] at h
    obtain ⟨rfl, rfl⟩ := h
    rfl
  | command c =>
    obtain ⟨⟨found, c'⟩, hc, hr⟩ := map_eq_ok.mp h
    obtain ⟨rfl, rfl⟩ := Prod.mk.inj hr
    exact map_eq_ok.mpr ⟨_, Command.perform_perform hc, rfl⟩

namespace State

variable {s : State} {v : String} {value : Value}

theorem bindIn_of_findIn {bindings : List (String × Value)} (h : findIn v bindings = some value) :
    bindIn v value bindings = bindings := by
  induction bindings with
  | nil => simp [findIn] at h
  | cons b rest ih =>
    obtain ⟨name, old⟩ := b
    by_cases hname : name = v
    · simp only [findIn, hname, if_true, Option.some.injEq] at h
      simp [bindIn, hname, h]
    · simp only [findIn, hname, if_false] at h
      simp [bindIn, hname, ih h]

/-- To bind a variable to what it is bound to changes nothing. -/
theorem bind_of_find? (h : s.find? v = some value) : s.bind v value = s := by
  rw [bind, bindIn_of_findIn h]

theorem complete_complete (s : State) (v : String) : (s.complete v).complete v = s.complete v := by
  have hcompleted : (s.complete v).completed.contains v = true := by
    by_cases h : v ∈ s.completed <;> simp [complete, h]
  rw [complete, if_pos hcompleted]

end State

namespace Exec

variable {var : String} {id index : Nat} {s t : State} {c : Command}
  {result : Except ExecError ActionResult}

theorem nameKind_command (h : s.object id = .command c) :
    nameKind s (.object id) = .command id true := by
  simp [nameKind, h, TaskObject.command?]

/-- A name runs the protocol of the task that it is bound to, or gives its value. -/
theorem nameKind_cases (s : State) (value : Value) :
    nameKind s value = .value value ∨ ∃ id c, value = .object id ∧ s.object id = .command c := by
  cases value with
  | object id =>
    cases hobject : s.object id with
    | command c => exact .inr ⟨id, c, rfl, hobject⟩
    | entity e => exact .inl (by simp [nameKind, hobject, TaskObject.command?])
  | _ => exact .inl rfl

/-- The protocol of a task runs a second time as it ran the first time. -/
theorem performOrRecommend_again (hobject : s.object id = .command c)
    (h : performOrRecommend var index ⟨id, none⟩ s = (result, t)) :
    performOrRecommend var index ⟨id, none⟩ t = (result, t) ∧ ∃ c', t.object id = .command c' := by
  have hlt := State.lt_of_object_command hobject
  obtain ⟨action, hasks, heq⟩ | ⟨hasks, ⟨cause, hperform, heq⟩ | ⟨output, changed, hperform, heq⟩⟩ :=
    performOrRecommend_cases var index ⟨id, none⟩ s
  · obtain ⟨rfl, rfl⟩ := Prod.mk.inj (heq.symm.trans h)
    have hagain : (State.task { s with recommendation := some (var, action) }
      ⟨id, none⟩).recommend? = some action := hasks
    exact ⟨by simp only [performOrRecommend, hagain], c, hobject⟩
  · obtain ⟨rfl, rfl⟩ := Prod.mk.inj (heq.symm.trans h)
    have htask : State.task { s with recommendation := none } ⟨id, none⟩ = s.task ⟨id, none⟩ := rfl
    exact ⟨by simp only [performOrRecommend, htask, hasks, hperform], c, hobject⟩
  · obtain ⟨rfl, ht⟩ := Prod.mk.inj (heq.symm.trans h)
    have hclear : { t with recommendation := none } = t := by
      rw [← ht]
      rfl
    have hthere : t.object id = changed := by
      rw [← ht]
      exact State.object_setTask_none (s := { s with recommendation := none }) hlt changed
    have htask : t.task ⟨id, none⟩ = changed := (TaskObject.part_none _).trans hthere
    have hnothing : changed.recommend? = none := (TaskObject.recommend?_perform hperform).trans hasks
    have hperformed : changed.perform t.context = .ok (output, changed) := by
      rw [← ht]
      exact TaskObject.perform_perform hperform
    have hwritten : t.setTask ⟨id, none⟩ changed = t := by
      rw [← htask]
      exact State.setTask_task t ⟨id, none⟩
    have hcomplete : t.complete var = t := by
      rw [← ht]
      exact State.complete_complete _ var
    refine ⟨by simp only [performOrRecommend, htask, hnothing, hclear, hperformed, hwritten, hcomplete], ?_⟩
    obtain rfl | ⟨c', entity, -, -, -, rfl⟩ := TaskObject.perform_cases hperform
    · exact ⟨c, hthere.trans ((TaskObject.part_none _).trans hobject)⟩
    · exact ⟨_, hthere⟩

end Exec

namespace Executor

variable {x : Executor} {sugars : List Sugar} {s : State} {v : String}

/-- A turn that is the name of a variable. -/
theorem executeProgram_name (x : Executor) (turn : Nat) (v : String) (s : State) :
    x.executeProgram turn ⟨[Sugar.resume.meaning v .none .none]⟩ false s =
      match s.find? v with
      | none => (.error (.unboundVariable v), s)
      | some value => Exec.runKind v ((varIndex? v).getD turn) (Exec.nameKind s value) s := by
  simp only [executeProgram, classify, Exec.classify, Exec.classifyStmt, Sugar.meaning, Exec.eval,
    State.lookup]
  cases s.find? v <;> rfl

/-- The name of a variable that is known as such stands for the same turn twice, whatever the
indices of the turns are. -/
theorem executeProgram_name_twice (hindex : ∀ value, s.find? v = some value → (varIndex? v).isSome)
    (i j : Nat) :
    let p : Program := ⟨[Sugar.resume.meaning v .none .none]⟩
    x.executeProgram j p false (x.executeProgram i p false s).2 = x.executeProgram i p false s := by
  simp only [executeProgram_name]
  cases hfind : s.find? v with
  | none => simp only [hfind]
  | some value =>
    obtain ⟨index, hindex⟩ := Option.isSome_iff_exists.mp (hindex value hfind)
    simp only [hindex, Option.getD_some]
    obtain hvalue | ⟨id, c, rfl, hobject⟩ := Exec.nameKind_cases s value
    · have hsame : Exec.runKind v index (.value value) s =
          (.ok (.performed index (some (.value value))), s) := by
        rw [Exec.runKind, State.bind_of_find? hfind]
      simp only [hvalue, hsame, hfind]
    · cases hfirst : Exec.performOrRecommend v index ⟨id, none⟩ s with
      | mk result t =>
        obtain ⟨hagain, c', hobject'⟩ := Exec.performOrRecommend_again hobject hfirst
        have hkept := Exec.find?_performOrRecommend v index ⟨id, none⟩ s v
        rw [hfirst] at hkept
        simp only [Exec.nameKind_command hobject, Exec.runKind, if_true, hfirst, hkept, hfind,
          Exec.nameKind_command hobject', hagain]

/-- What is bound after turns is the variable of one of them. -/
theorem varIndex?_of_bound {context : AppContext} {lines : List (Nat × String)}
    (hlines : ∀ line ∈ lines, line.1 < Text.indexBound) {value : Value}
    (h : (x.after lines (.new context)).find? v = some value) : (varIndex? v).isSome := by
  obtain hnew | ⟨line, hline, rfl⟩ := find?_after x lines (.new context) v
  · rw [hnew] at h
    simp [State.new, State.find?, State.findIn] at h
  · rw [varIndex?_varName_of_lt (hlines line hline)]
    rfl

/-- A resumption is the turn of the name, and no marker follows it. -/
theorem execute_resume (hrewriter : x.rewriter = .ofSugars sugars) (hsugar : .resume ∈ sugars)
    (hv : Syntax.IsName v.toList) (turn : Nat) (s : State) :
    x.execute turn ("resume(" ++ v ++ ")") s =
      x.executeProgram turn ⟨[Sugar.resume.meaning v .none .none]⟩ false s := by
  have htext : "resume(" ++ v ++ ")" =
      String.ofList ((Sugar.resume.call v).print ++ []) := by
    apply String.toList_injective
    simp [Sugar.print_call, Sugar.id]
  have hmarker : followedBy x.options.followMarker.toList [] = false := by
    cases x.options.followMarker.toList <;> rfl
  rw [htext, execute_sentence hrewriter (Sugar.resume.onLine_call hv (by simp)), hmarker,
    Sugar.expandAll_of_calls sugars (Sugar.resume.calls_call v), if_pos hsugar]

/-- In a state that turns lead to, whichever of them failed, to resume a variable a second time
gives the result or the error of the first time and changes nothing. -/
theorem resume_twice {context : AppContext} {lines : List (Nat × String)}
    (hrewriter : x.rewriter = .ofSugars sugars) (hsugar : .resume ∈ sugars)
    (hlines : ∀ line ∈ lines, line.1 < Text.indexBound)
    (hv : Syntax.scanIdentifier v.toList = some (v.toList, [])) (i j : Nat) :
    let first := x.execute i ("resume(" ++ v ++ ")") (x.after lines (.new context))
    x.execute j ("resume(" ++ v ++ ")") first.2 = first := by
  simp only [execute_resume hrewriter hsugar (.of_scanIdentifier hv)]
  exact executeProgram_name_twice (fun _ hvalue => varIndex?_of_bound hlines hvalue) i j

/-- A query is resumed, and finds its hotel each time. -/
theorem resume_twice_hotels :
    let schema : CommandSchema := ⟨"list_hotels", .query "Hotel", [], [], false, none⟩
    let hotel : Entity := ⟨"Hotel", [("city", .str "Paris")]⟩
    let x : Executor := ⟨.ofSchemas [schema], Sugar.defaults, .defaults⟩
    let s := x.after [(0, "list_hotels()")] (.new ⟨[("Hotel", [hotel])]⟩)
    let first := x.execute 1 "resume(x0)" s
    x.execute 2 "resume(x0)" first.2 = first ∧
      first.1.toOption =
        some (.performed 0 (some (.informList "Found Hotel: Hotel with city Paris" [hotel]))) := by
  intro schema hotel x s first
  have hlines : ∀ line ∈ [(0, "list_hotels()")], line.1 < Text.indexBound := by decide
  exact ⟨resume_twice (v := "x0") (x := x) rfl (by decide) hlines (by decide) 1 2, by decide +kernel⟩

end Executor

end TaskDialogue
