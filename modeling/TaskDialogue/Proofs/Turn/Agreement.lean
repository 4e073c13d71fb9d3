import TaskDialogue.Proofs.Turn.Checked

/-!
# Checked turns agree

From a closed state every checked read succeeds, so a checked turn gives what the turn gives.
What a turn acts on is there when it is resolved, and none of the writes before it is
performed takes it away.
-/
namespace TaskDialogue

namespace Exec

variable {registry : Registry} {s : State}

theorem mem_of_itemAt? {items : List Value} {index : Option Int64} {item : Value}
    (h : itemAt? items index = some item) : item ∈ items := by
  unfold itemAt? at h
  split at h
  · split at h
    · exact List.mem_of_getElem? h
    · simp at h
  · simp at h

theorem object?_of_lookup (hs : s.Closed) {var : String} {id : Nat}
    (h : s.lookup var = .ok (.object id)) : s.object? id = some (s.object id) :=
  State.object?_eq (Value.below_object? (hs.find? (State.lookup_ok h)) rfl)

/-- What `var[index]` means is there to be read. -/
theorem readTask?_eq (hs : s.Closed) (var : String) (index : Option Int64) (attr : String) :
    (do
      match ← s.resolve? var index with
      | .error e => return .error e
      | .ok target => return (← s.task? target).get attr) =
      some (s.resolve var index >>= fun target => (s.task target).get attr) := by
  rw [State.resolve?_eq hs]
  cases htarget : s.resolve var index with
  | error e => rfl
  | ok target => simp [State.task?_eq (State.resolve_has hs htarget), bind, Except.bind]

theorem evalField?_eq (hs : s.Closed) (base : Expr) (attr : String) :
    evalField? s base attr = some (evalField s base attr) := by
  unfold evalField?
  split
  · next var _ =>
    simp only [evalField]
    cases hlook : s.lookup var with
    | error e => rfl
    | ok v =>
      cases v with
      | object id => simp [object?_of_lookup hs hlook, bind, Except.bind]
      | none | bool _ | int _ | float _ | str _ | list _ => rfl
  · next var _ index _ =>
    simp only [evalField]
    cases subscriptIndex index with
    | error e => rfl
    | ok i =>
      cases hlook : s.lookup var with
      | error e => rfl
      | ok v =>
        cases v with
        | object _ | none | bool _ | int _ | float _ | str _ => exact readTask?_eq hs var i attr
        | list items =>
          have hitems := hs.find? (State.lookup_ok hlook)
          simp only [bind, Except.bind]
          cases hitem : itemAt? items i with
          | none => rfl
          | some item =>
            cases item with
            | none | bool _ | int _ | float _ | str _ | list _ => rfl
            | object id =>
              rw [Value.ids_list, Below.flatMap] at hitems
              have hid := Value.below_object? (hitems _ (mem_of_itemAt? hitem)) rfl
              simp [State.object?_eq hid]
  · next hname hsubscript =>
    unfold evalField
    split
    · exact absurd rfl (hname _ _)
    · exact absurd rfl (hsubscript _ _ _ _)
    · rfl

section

variable {α β : Type} {P : State → α → Prop}

/-- A chain of checked steps gives what the chain gives, when its first step does and the rest
does from every closed state. -/
theorem andThen_eq {step : Checked α} {r : Except ExecError α × State}
    {next : α → State → Checked β} {out : Except ExecError β × State} (hstep : step = some r)
    (hr : Keeps State.Closed P s r) (herror : ∀ e t, r = (.error e, t) → out = (.error e, t))
    (hok : ∀ a t, r = (.ok a, t) → t.Closed → P t a → next a t = some out) :
    step.andThen next = some out := by
  subst hstep
  obtain ⟨r, t⟩ := r
  cases r with
  | error e => rw [herror e t rfl, Checked.andThen_error]
  | ok a => exact hok a t rfl hr.state (hr.result a rfl)

end

mutual

theorem eval?_eq :
    ∀ (e : Expr) {s : State}, s.Closed → eval? registry e s = some (eval registry e s)
  | .none _, _, _ | .bool _ _, _, _ | .int _ _, _, _ | .float _ _, _, _ | .str _ _, _, _ => rfl
  | .name _ _, _, _ | .subscript _ _ _, _, _ => rfl
  | .field base attr _, s, hs => by simp [eval?, eval, evalField?_eq hs]
  | .list es _, s, hs => by
    simp only [eval?, eval]
    cases Expr.constantAll? es with
    | some values => rfl
    | none =>
      refine andThen_eq (evalAll?_eq es hs) ((closed_call registry).evalAll es hs)
        (fun e t h => by simp only [h]) fun values t h _ _ => ?_
      simp only [h, Checked.done]
  | .call func args keywords _, s, hs => by
    simp only [eval?, eval]
    cases func.name? with
    | none => rfl
    | some name =>
      cases hbuild : registry.build name with
      | error e => simp only [hbuild, Checked.fail]
      | ok command =>
        have hc := (closed_call registry).build (s := s) hbuild
        simp only [hbuild]
        by_cases hmany : command.schema.positional.length < args.length
        · simp only [hmany, if_true, Checked.fail]
        · simp only [hmany, if_false]
          refine andThen_eq (fillPositional?_eq args _ hs hc)
            ((closed_call registry).fillPositional args _ hs hc)
            (fun e t h => by simp only [h]) fun filled t h ht hfilled => ?_
          simp only [h]
          refine andThen_eq (fillKeywords?_eq keywords ht hfilled)
            ((closed_call registry).fillKeywords keywords ht hfilled)
            (fun e u h => by simp only [h]) fun full u h _ _ => ?_
          simp only [h, Checked.done]

theorem evalAll?_eq : ∀ (es : List Expr) {s : State}, s.Closed →
    evalAll? registry es s = some (evalAll registry es s)
  | [], _, _ => rfl
  | e :: es, s, hs => by
    simp only [evalAll?, evalAll]
    refine andThen_eq (eval?_eq e hs) ((closed_call registry).eval e hs)
      (fun e t h => by simp only [h]) fun value t h ht _ => ?_
    simp only [h]
    refine andThen_eq (evalAll?_eq es ht) ((closed_call registry).evalAll es ht)
      (fun e u h => by simp only [h]) fun values u h _ _ => ?_
    simp only [h, Checked.done]

theorem fillPositional?_eq : ∀ (es : List Expr) (slots : List String) {command : Command} {s : State},
    s.Closed → Below s.objects.length command.ids →
      fillPositional? registry es slots command s = some (fillPositional registry es slots command s)
  | [], _, _, _, _, _ => rfl
  | _ :: _, [], _, _, _, _ => rfl
  | e :: es, slot :: slots, command, s, hs, hc => by
    have he := (closed_call registry).eval e hs
    simp only [fillPositional?, fillPositional]
    refine andThen_eq (eval?_eq e hs) he (fun e t h => by simp only [h])
      fun value t h ht hvalue => ?_
    simp only [h]
    cases hset : command.set slot value with
    | error e => rfl
    | ok filled =>
      refine fillPositional?_eq es slots ht (Command.below_set hset (hc.mono ?_) hvalue)
      simpa [h] using he.grows.length_le

theorem fillKeywords?_eq : ∀ (ks : List Keyword) {command : Command} {s : State},
    s.Closed → Below s.objects.length command.ids →
      fillKeywords? registry ks command s = some (fillKeywords registry ks command s)
  | [], _, _, _, _ => rfl
  | ⟨slot, e, _⟩ :: ks, command, s, hs, hc => by
    have he := (closed_call registry).eval e hs
    simp only [fillKeywords?, fillKeywords]
    refine andThen_eq (eval?_eq e hs) he (fun e t h => by simp only [h])
      fun value t h ht hvalue => ?_
    simp only [h]
    cases hset : command.set slot value with
    | error e => rfl
    | ok filled =>
      refine fillKeywords?_eq ks ht (Command.below_set hset (hc.mono ?_) hvalue)
      simpa [h] using he.grows.length_le

end

section

variable {arg : Option Value} (harg : ∀ v, arg = some v → Below s.objects.length v.ids)

include harg

theorem performBinding?_eq : performBinding? s arg = some (performBinding s arg) := by
  unfold performBinding? performBinding
  cases arg with
  | none => rfl
  | some v =>
    cases v with
    | none | bool _ | int _ | float _ | str _ | list _ => rfl
    | object id =>
      have hid : id < s.objects.length := Value.below_object? (harg _ rfl) rfl
      simp only [State.object?_eq hid, Option.bind_eq_bind, Option.bind_some]
      cases s.object id with
      | entity e => rfl
      | command c =>
        dsimp only
        cases c.isQuery with
        | false => rfl
        | true =>
          rcases c.results with _ | ⟨e, _ | _⟩ <;> rfl

theorem lenKind?_eq : lenKind? s arg =
    some ((resultCount s arg).map fun n => .value (.int (Int64.ofNat n))) := by
  unfold lenKind? resultCount
  cases arg with
  | none => rfl
  | some v =>
    cases v with
    | none | bool _ | int _ | float _ | str _ | list _ => rfl
    | object id =>
      have hid : id < s.objects.length := Value.below_object? (harg _ rfl) rfl
      simp only [argument?, State.object?_eq hid, queryArg?, argTypeName]
      cases s.object id with
      | entity e => rfl
      | command c =>
        by_cases hquery : c.isQuery = true
        · simp [TaskObject.command?, Option.filter, hquery, Except.map]
        · simp [TaskObject.command?, Option.filter, hquery, Except.map, TaskObject.typeName]

theorem nextKind?_eq : nextKind? s arg = some ((firstResult s arg).map .next) := by
  unfold nextKind? firstResult
  cases arg with
  | none => rfl
  | some v =>
    cases v with
    | none | bool _ | int _ | float _ | str _ | list _ => rfl
    | object id =>
      have hid : id < s.objects.length := Value.below_object? (harg _ rfl) rfl
      simp only [argument?, State.object?_eq hid, queryArg?, argTypeName]
      cases s.object id with
      | entity e => rfl
      | command c =>
        by_cases hquery : c.isQuery = true
        · simp [TaskObject.command?, Option.filter, hquery, Except.map]
        · simp [TaskObject.command?, Option.filter, hquery, Except.map, TaskObject.typeName]

end

theorem callKind?_eq (hs : s.Closed) {v : Value} (hv : Below s.objects.length v.ids) :
    callKind? s v = some (callKind s v) := by
  cases v with
  | none | bool _ | int _ | float _ | str _ | list _ => rfl
  | object id =>
    have hid : id < s.objects.length := Value.below_object? hv rfl
    simp only [callKind?, callKind, State.object?_eq hid, Option.bind_eq_bind, Option.bind_some]
    cases hc : s.object id with
    | entity e => rfl
    | command c =>
      have harg : ∀ arg, c.value? "args" = some arg → Below s.objects.length arg.ids :=
        fun arg h => (closed_call ⟨[]⟩).argument hs hc h
      dsimp only
      cases c.schema.kind with
      | perform => simp [performBinding?_eq harg]
      | len => exact lenKind?_eq harg
      | next => exact nextKind?_eq harg
      | intent | query _ | say | hint => rfl

theorem nameKind?_eq {v : Value} (hv : Below s.objects.length v.ids) :
    nameKind? s v = some (nameKind s v) := by
  cases v with
  | none | bool _ | int _ | float _ | str _ | list _ => rfl
  | object id =>
    have hid : id < s.objects.length := Value.below_object? hv rfl
    simp [nameKind?, nameKind, State.object?_eq hid]

theorem assignmentGroups?_eq (targets es : List Expr)
    (groups : List (String × List AttributeUpdate)) (hs : s.Closed) :
    assignmentGroups? registry targets es groups s =
      some (assignmentGroups registry targets es groups s) := by
  induction targets generalizing es groups s with
  | nil => rfl
  | cons target targets ih =>
    cases es with
    | nil => rfl
    | cons e es =>
      simp only [assignmentGroups?, assignmentGroups]
      cases assignmentTarget target with
      | error e => rfl
      | ok parts =>
        obtain ⟨var, index, attr⟩ := parts
        refine andThen_eq (eval?_eq e hs) ((closed_call registry).eval e hs)
          (fun e t h => by simp only [h]) fun value t h ht _ => ?_
        simp only [h]
        exact ih es _ ht

theorem classifyAssignment?_eq (policy : MultiTargetPolicy) (turn : Nat)
    (targets values : List Expr) (hs : s.Closed) :
    classifyAssignment? registry policy turn targets values s =
      some (classifyAssignment registry policy turn targets values s) := by
  unfold classifyAssignment? classifyAssignment
  refine andThen_eq (assignmentGroups?_eq targets values [] hs)
    ((closed_call registry).assignmentGroups targets values hs (List.forall_mem_nil _))
    (fun e t h => by simp only [h]) fun groups t h _ _ => ?_
  simp only [h]

theorem classifyStmt?_eq (policy : MultiTargetPolicy) (turn : Nat) (stmt : Stmt) (hs : s.Closed) :
    classifyStmt? registry policy turn stmt s = some (classifyStmt registry policy turn stmt s) := by
  cases stmt with
  | assign target value _ => exact classifyAssignment?_eq policy turn [target] [value] hs
  | tupleAssign targets values _ => exact classifyAssignment?_eq policy turn targets values hs
  | append target value _ =>
    simp only [classifyStmt?, classifyStmt]
    cases appendTarget target with
    | error e => rfl
    | ok parts =>
      refine andThen_eq (eval?_eq value hs) ((closed_call registry).eval value hs)
        (fun e t h => by simp only [h]) fun v t h _ _ => ?_
      simp only [h, Checked.done]
  | expr e _ =>
    have heval : eval? registry e s = some (eval registry e s) := eval?_eq e hs
    have hkeeps := (closed_call registry).eval e hs
    cases e with
    | call func args keywords span =>
      refine andThen_eq heval hkeeps (fun e t h => by simp only [classifyStmt, h])
        fun v t h ht hv => ?_
      simp only [classifyStmt, h, callKind?_eq ht hv, Option.map_some]
    | name var span =>
      refine andThen_eq heval hkeeps (fun e t h => by simp only [classifyStmt, h])
        fun v t h _ hv => ?_
      simp only [classifyStmt, h, nameKind?_eq hv, Option.bind_some, Checked.done]
    | none _ | bool _ _ | int _ _ | float _ _ | str _ _ | list _ _ | field _ _ _ | subscript _ _ _ =>
      refine andThen_eq heval hkeeps (fun e t h => by simp only [classifyStmt, h])
        fun v t h _ _ => ?_
      simp only [classifyStmt, h, Checked.done]

theorem classify?_eq (policy : MultiTargetPolicy) (turn : Nat) (p : Program) (hs : s.Closed) :
    classify? registry policy turn p s = some (classify registry policy turn p s) := by
  obtain ⟨body⟩ := p
  match body with
  | [] | _ :: _ :: _ => rfl
  | [stmt] => exact classifyStmt?_eq policy turn stmt hs

theorem performOrRecommend?_eq (var : String) (index : Nat) {target : TaskRef}
    (htarget : s.Has target) :
    performOrRecommend? var index target s = some (performOrRecommend var index target s) := by
  unfold performOrRecommend? performOrRecommend
  simp only [State.task?_eq htarget, Option.bind_eq_bind, Option.bind_some]
  cases (s.task target).recommend? with
  | some action => rfl
  | none =>
    have hcleared : State.Has { s with recommendation := none } target := htarget
    simp only [State.task?_eq hcleared, Option.bind_some]
    cases hperform : (State.task { s with recommendation := none } target).perform s.context with
    | error cause => rfl
    | ok r =>
      obtain ⟨output, changed⟩ := r
      simp only [State.setTask?_of_perform hcleared hperform, Option.bind_some, Checked.done]

theorem applyUpdates?_eq (var : String) (updates : List AttributeUpdate) (target : Option TaskRef)
    (hs : s.Closed) (hupdates : ∀ u ∈ updates, Below s.objects.length u.value.ids) :
    applyUpdates? var updates target s = some (applyUpdates var updates target s) := by
  induction updates generalizing target s with
  | nil => rfl
  | cons u rest ih =>
    obtain ⟨hu, hrest⟩ := List.forall_mem_cons.mp hupdates
    simp only [applyUpdates?, applyUpdates, State.resolve?_eq hs, Option.bind_eq_bind,
      Option.bind_some]
    cases hplace : s.resolve var u.index with
    | error e => rfl
    | ok place =>
      have hhas := State.resolve_has hs hplace
      simp only [State.task?_eq hhas, Option.bind_some]
      cases hset : (s.task place).set u.attr u.value with
      | error e => rfl
      | ok changed =>
        have hchanged := hs.setTask place (TaskObject.below_set hset (hs.task place) hu)
        simp only [State.setTask?_of_written hhas (TaskObject.set_written hset), Option.bind_some]
        exact ih _ hchanged fun w hw => by simpa using hrest w hw

/-- The target of an assignment is still there when all of its writes are made. -/
theorem applyUpdates_has (var : String) (updates : List AttributeUpdate) {target : Option TaskRef}
    (hs : s.Closed) (hupdates : ∀ u ∈ updates, Below s.objects.length u.value.ids)
    (htarget : ∀ place, target = some place → s.Has place) {last : TaskRef} {t : State}
    (h : applyUpdates var updates target s = (.ok (some last), t)) : t.Has last := by
  induction updates generalizing target s with
  | nil =>
    simp only [applyUpdates, Prod.mk.injEq, Except.ok.injEq] at h
    obtain ⟨rfl, rfl⟩ := h
    exact htarget last rfl
  | cons u rest ih =>
    obtain ⟨hu, hrest⟩ := List.forall_mem_cons.mp hupdates
    simp only [applyUpdates] at h
    split at h
    · simp at h
    · next place hplace =>
      split at h
      · simp at h
      · next changed hset =>
        have hchanged := hs.setTask place (TaskObject.below_set hset (hs.task place) hu)
        refine ih hchanged (fun w hw => by simpa using hrest w hw) ?_ h
        intro other hother
        rw [← Option.some.inj hother]
        exact (State.resolve_has hs hplace).setTask (TaskObject.set_written hset)

theorem runKind?_eq (var : String) (index : Nat) {kind : CallKind} (hs : s.Closed)
    (hkind : kind.Holds (fun s v => Below s.objects.length v.ids)
      (fun s e => Below s.objects.length e.ids) s) :
    runKind? var index kind s = some (runKind var index kind s) := by
  cases kind with
  | command object assigned =>
    have hid : object < s.objects.length := Value.below_object? hkind rfl
    refine performOrRecommend?_eq var index ?_
    cases assigned with
    | true => exact ⟨hid, by simp⟩
    | false => exact ⟨hid, by simp⟩
  | assignment updates =>
    simp only [runKind?, runKind, applyUpdates?_eq var updates none hs hkind]
    rcases h : applyUpdates var updates none s with ⟨e | target, t⟩
    · rfl
    · cases target with
      | none => rfl
      | some target =>
        exact performOrRecommend?_eq var index (applyUpdates_has var updates hs hkind (by simp) h)
  | append attr value =>
    simp only [runKind?, runKind, State.resolve?_eq hs, Option.bind_eq_bind, Option.bind_some]
    cases htarget : s.resolve var none with
    | error e => rfl
    | ok target =>
      have hhas := State.resolve_has hs htarget
      simp only [State.task?_eq hhas, Option.bind_some]
      cases happend : (s.task target).append attr value with
      | error e => rfl
      | ok changed =>
        have hwritten := TaskObject.append_written happend
        simp only [State.setTask?_of_written hhas hwritten, Option.bind_some]
        exact performOrRecommend?_eq var index (hhas.setTask hwritten)
  | perform _ | next _ | value _ => rfl

theorem run?_eq {call : Call} (followed : Bool) (hs : s.Closed)
    (hcall : call.kind.Holds (fun s v => Below s.objects.length v.ids)
      (fun s e => Below s.objects.length e.ids) s) :
    run? call followed s = some (run call followed s) := by
  cases followed with
  | false => exact runKind?_eq _ _ hs hcall
  | true =>
    simp only [run?, run, if_true, State.followRecommendation?_eq hs, Option.bind_some]
    exact runKind?_eq _ _ hs.followRecommendation
      ((closed_turn ⟨[]⟩).holds_followRecommendation hcall)

end Exec

/-- From a closed state a turn finds all that it looks for. -/
theorem Executor.execute?_eq (x : Executor) (turn : Nat) (text : String) {s : State}
    (hs : s.Closed) : x.execute? turn text s = some (x.execute turn text s) := by
  unfold Executor.execute? Executor.execute
  cases x.prepare text with
  | error e => rfl
  | ok r =>
    obtain ⟨p, followed⟩ := r
    refine Exec.andThen_eq (Exec.classify?_eq x.options.multiTargetPolicy turn p hs)
      ((Exec.closed_call x.registry).classify x.options.multiTargetPolicy turn p hs)
      (fun e t h => ?_) fun call t h ht hcall => ?_
    · simp only [Executor.executeProgram, Executor.classify, h]
    · simp only [Executor.executeProgram, Executor.classify, h]
      exact Exec.run?_eq followed ht hcall

end TaskDialogue
