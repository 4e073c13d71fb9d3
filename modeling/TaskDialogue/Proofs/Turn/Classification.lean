import TaskDialogue.Proofs.Turn.Evaluation
import TaskDialogue.Exec.Executor

/-!
# What classification keeps

The call of a statement is found by evaluating its parts and by reading what they mean, so
the invariants of evaluation hold of calls as well: of the objects that they name, of the
values that they write and of the entities that they copy.
-/
namespace TaskDialogue

/-- What holds of the values of a call and of the entities that it copies. -/
def CallKind.Holds (V : State → Value → Prop) (E : State → Entity → Prop) (s : State) :
    CallKind → Prop
  | command id _ | perform (some (.shared id)) => V s (.object id)
  | perform (some (.copied e)) | next (some e) => E s e
  | assignment updates => ∀ u ∈ updates, V s u.value
  | append _ v | value v => V s v
  | perform none | next none => True

namespace Exec

/-- An invariant of evaluation that also says what holds of the results of queries. -/
structure CallInvariant (registry : Registry) (I : State → Prop) (V : State → Value → Prop)
    (C : State → Command → Prop) (E : State → Entity → Prop) : Prop
    extends EvalInvariant registry I V C where
  found : ∀ {s id c e}, I s → s.object id = .command c → e ∈ c.results → E s e

theorem addUpdate_forall {P : AttributeUpdate → Prop} {var : String} {update : AttributeUpdate}
    {groups : List (String × List AttributeUpdate)} (h : ∀ g ∈ groups, ∀ u ∈ g.2, P u)
    (hu : P update) : ∀ g ∈ addUpdate var update groups, ∀ u ∈ g.2, P u := by
  induction groups with
  | nil => simpa [addUpdate] using hu
  | cons g rest ih =>
    obtain ⟨hg, hrest⟩ := List.forall_mem_cons.mp h
    simp only [addUpdate]
    split
    · refine List.forall_mem_cons.mpr ⟨fun u hmem => ?_, hrest⟩
      obtain hmem | hmem := List.mem_append.mp hmem
      · exact hg u hmem
      · exact List.mem_singleton.mp hmem ▸ hu
    · exact List.forall_mem_cons.mpr ⟨hg, ih hrest⟩

/-- What is selected is one of the groups. -/
theorem selectGroup_cases {policy : MultiTargetPolicy} {turn : Nat}
    {groups : List (String × List AttributeUpdate)} {call : Call}
    (h : selectGroup policy turn groups = .ok call) :
    ∃ g ∈ groups, call = .on g.1 turn (.assignment g.2) := by
  unfold selectGroup at h
  split at h
  · simp at h
  · dsimp only at h
    split at h
    · next var updates hfind =>
      simp only [Except.ok.injEq] at h
      exact ⟨_, List.mem_of_find?_eq_some hfind, h.symm⟩
    · simp at h

theorem value?_get {c : Command} {slot : String} {v : Value} (hslot : slot ≠ confirmedAttr)
    (h : c.value? slot = some v) : c.get slot = .ok v := by
  obtain ⟨position, hposition, hv⟩ := Option.bind_eq_some_iff.mp h
  simp [Command.get, Command.slotPosition, hslot, hposition, bind, Except.bind, pure, Except.pure,
    List.getD_eq_getElem?_getD, hv]

section

variable {registry : Registry} {I : State → Prop} {V : State → Value → Prop}
  {C : State → Command → Prop} {E : State → Entity → Prop}

theorem EvalInvariant.assignmentGroups (h : EvalInvariant registry I V C) (targets es : List Expr)
    {groups : List (String × List AttributeUpdate)} {s : State} (hs : I s)
    (hgroups : ∀ g ∈ groups, ∀ u ∈ g.2, V s u.value) :
    Keeps I (fun t gs => ∀ g ∈ gs, ∀ u ∈ g.2, V t u.value) s
      (Exec.assignmentGroups registry targets es groups s) := by
  induction targets generalizing es groups s with
  | nil => exact .ok hs hgroups
  | cons target targets ih =>
    cases es with
    | nil => exact .ok hs hgroups
    | cons e es =>
      simp only [Exec.assignmentGroups]
      split
      · exact .error hs
      · next var index attr _ =>
        have he := h.eval e hs
        split
        · next heq => exact .failed (heq ▸ he)
        · next value t heq =>
          rw [heq] at he
          refine .after he.grows (ih es he.state (addUpdate_forall ?_ (he.result _ rfl)))
          exact fun g hg u hu => h.value_grows he.grows (hgroups g hg u hu)

variable {s : State} {v : Value}

/-- The argument of an auxiliary command is one of its slots. -/
theorem EvalInvariant.argument (h : EvalInvariant registry I V C) (hs : I s) {id : Nat}
    {c : Command} {arg : Value} (hc : s.object id = .command c) (harg : c.value? "args" = some arg) :
    V s arg := by
  have hget : (s.task ⟨id, none⟩).get "args" = .ok arg := by
    rw [State.task, TaskObject.part_none, hc]
    exact value?_get (by decide) harg
  exact h.read hs hget

theorem queryArg?_cases {arg : Option Value} {c : Command} (h : queryArg? s arg = some c) :
    ∃ id, arg = some (.object id) ∧ s.object id = .command c ∧ c.isQuery = true := by
  unfold queryArg? at h
  split at h
  · next id =>
    obtain ⟨hc, hquery⟩ := Option.filter_eq_some_iff.mp h
    refine ⟨id, rfl, ?_, hquery⟩
    cases ho : s.object id with
    | command d => simpa [ho, TaskObject.command?] using hc
    | entity e => simp [ho, TaskObject.command?] at hc
  · simp at h

theorem CallInvariant.performBinding (h : CallInvariant registry I V C E) (hs : I s)
    {arg : Option Value} (harg : ∀ v, arg = some v → V s v) :
    (CallKind.perform (Exec.performBinding s arg)).Holds V E s := by
  unfold Exec.performBinding
  split
  · next id =>
    split
    · exact harg _ rfl
    · next c hc =>
      split
      · next entity _ hresults => exact h.found hs hc (by simp [hresults])
      · trivial
  · trivial

theorem CallInvariant.callKind (h : CallInvariant registry I V C E) (hs : I s) (hv : V s v)
    {kind : CallKind} (hkind : Exec.callKind s v = .ok kind) : kind.Holds V E s := by
  unfold Exec.callKind at hkind
  split at hkind
  · next id =>
    split at hkind
    · next c hc =>
      dsimp only at hkind
      split at hkind
      · simp only [Except.ok.injEq] at hkind
        exact hkind ▸ h.performBinding hs fun arg harg => h.argument hs hc harg
      · obtain ⟨n, -, rfl⟩ := map_eq_ok.mp hkind
        exact h.literal (e := .int (Int64.ofNat n) .none) rfl
      · obtain ⟨entity, hfirst, rfl⟩ := map_eq_ok.mp hkind
        cases entity with
        | none => trivial
        | some e =>
          unfold firstResult at hfirst
          split at hfirst
          · next d hd =>
            obtain ⟨_, -, hobject, -⟩ := queryArg?_cases hd
            simp only [Except.ok.injEq] at hfirst
            exact h.found hs hobject (List.mem_of_head? hfirst)
          · simp at hfirst
      · simp only [Except.ok.injEq] at hkind
        exact hkind ▸ hv
    · simp only [Except.ok.injEq] at hkind
      exact hkind ▸ hv
  · simp only [Except.ok.injEq] at hkind
    exact hkind ▸ hv

theorem nameKind_holds (hv : V s v) : (nameKind s v).Holds V E s := by
  unfold nameKind
  split
  · split <;> exact hv
  · exact hv

theorem EvalInvariant.classifyAssignment (h : EvalInvariant registry I V C)
    (policy : MultiTargetPolicy) (turn : Nat) (targets values : List Expr) (hs : I s) :
    Keeps I (fun t call => call.kind.Holds V E t) s
      (Exec.classifyAssignment registry policy turn targets values s) := by
  have hgroups := h.assignmentGroups targets values hs (List.forall_mem_nil _)
  simp only [Exec.classifyAssignment]
  split
  · next heq => exact .failed (heq ▸ hgroups)
  · next groups t heq =>
    rw [heq] at hgroups
    refine ⟨hgroups.state, hgroups.grows, fun call hcall => ?_⟩
    obtain ⟨g, hg, rfl⟩ := selectGroup_cases hcall
    exact hgroups.result _ rfl g hg

/-- Classification keeps the invariants of evaluation, and they hold of the call. -/
theorem CallInvariant.classify (h : CallInvariant registry I V C E) (policy : MultiTargetPolicy)
    (turn : Nat) (p : Program) (hs : I s) :
    Keeps I (fun t call => call.kind.Holds V E t) s (Exec.classify registry policy turn p s) := by
  unfold Exec.classify
  split
  · exact .error hs
  · next stmt _ =>
    cases stmt with
    | append target value _ =>
      simp only [classifyStmt]
      split
      · exact .error hs
      · have hvalue := h.eval value hs
        split
        · next heq => exact .failed (heq ▸ hvalue)
        · next v t heq =>
          rw [heq] at hvalue
          exact .after hvalue.grows (.ok hvalue.state (hvalue.result _ rfl))
    | assign target value _ => exact h.classifyAssignment policy turn [target] [value] hs
    | tupleAssign targets values _ => exact h.classifyAssignment policy turn targets values hs
    | expr e _ =>
      have he := h.eval e hs
      unfold classifyStmt
      split
      · simp_all
      · next heq =>
        simp only [Stmt.expr.injEq] at heq
        obtain ⟨rfl, -⟩ := heq
        split
        · next heq => exact .failed (heq ▸ he)
        · next v t heq =>
          rw [heq] at he
          refine ⟨he.state, he.grows, fun call hcall => ?_⟩
          obtain ⟨kind, hkind, rfl⟩ := map_eq_ok.mp hcall
          exact h.callKind he.state (he.result _ rfl) hkind
      · next heq =>
        simp only [Stmt.expr.injEq] at heq
        obtain ⟨rfl, -⟩ := heq
        split
        · next heq => exact .failed (heq ▸ he)
        · next v t heq =>
          rw [heq] at he
          exact .after he.grows (.ok he.state (nameKind_holds (he.result _ rfl)))
      · next heq =>
        simp only [Stmt.expr.injEq] at heq
        obtain ⟨rfl, -⟩ := heq
        split
        · next heq => exact .failed (heq ▸ he)
        · next v t heq =>
          rw [heq] at he
          exact .after he.grows (.ok he.state (he.result _ rfl))
      · simp_all
      · simp_all
  · exact .error hs

end

/-! ### The variable of a call -/

/-- The value that a call binds its variable to. -/
def bound? (s : State) : CallKind → Option Value
  | .command id false | .perform (some (.shared id)) => some (.object id)
  | .perform (some (.copied _)) | .next (some _) => some (.object s.nextId)
  | .next none => some .none
  | .value value => some value
  | .command _ true | .perform none | .assignment _ | .append _ _ => none

/-- The call of a turn: it binds the variable of the turn, or a variable to the value that it
has already, a command that it runs is there, and a task that is assigned is what its variable
is bound to. -/
structure Classified (turn : Nat) (s : State) (call : Call) : Prop where
  on : call = .on call.var turn call.kind
  command : ∀ id assigned, call.kind = .command id assigned → id < s.objects.length
  assigned : ∀ id, call.kind = .command id true → s.find? call.var = some (.object id)
  bound : ∀ value, bound? s call.kind = some value →
    call.var = varName turn ∨ s.find? call.var = some value

/-- A call that runs a command has made it. -/
theorem callKind_command {s : State} {v : Value} {id : Nat} {assigned : Bool}
    (h : callKind s v = .ok (.command id assigned)) :
    assigned = false ∧ id < s.objects.length := by
  unfold callKind at h
  split at h
  · split at h
    · next c hc =>
      dsimp only at h
      split at h
      · simp at h
      · obtain ⟨n, -, hn⟩ := map_eq_ok.mp h
        simp at hn
      · obtain ⟨entity, -, hn⟩ := map_eq_ok.mp h
        simp at hn
      · simp only [Except.ok.injEq, CallKind.command.injEq] at h
        obtain ⟨rfl, rfl⟩ := h
        exact ⟨rfl, State.lt_of_object_command hc⟩
    · simp at h
  · simp at h

/-- A bare name is bound to its own value, if at all. -/
theorem bound?_nameKind {s t : State} {v value : Value}
    (h : bound? t (nameKind s v) = some value) : value = v := by
  unfold nameKind at h
  split at h
  · split at h
    · simp [bound?] at h
    · exact (Option.some.inj h).symm
  · exact (Option.some.inj h).symm

/-- A bare name stays bound to what it is bound to. -/
theorem classified_nameKind {s : State} {var : String} {v : Value} (turn : Nat)
    (h : s.find? var = some v) : Classified turn s (.on var turn (nameKind s v)) := by
  refine ⟨rfl, fun id assigned hid => ?_, fun id hid => ?_, fun value hvalue => ?_⟩
  · simp only [Call.on, nameKind] at hid
    split at hid
    · split at hid
      · next place hsome =>
        simp only [CallKind.command.injEq] at hid
        obtain ⟨c, hc⟩ := Option.isSome_iff_exists.mp hsome
        cases hobject : s.object place with
        | command d => exact hid.1 ▸ State.lt_of_object_command hobject
        | entity e => simp [hobject, TaskObject.command?] at hc
      · simp at hid
    · simp at hid
  · simp only [Call.on, nameKind] at hid ⊢
    split at hid
    · split at hid
      · simp only [CallKind.command.injEq, and_true] at hid
        exact hid ▸ h
      · simp at hid
    · simp at hid
  · exact .inr (bound?_nameKind hvalue ▸ h)

theorem classifyAssignment_classified {registry : Registry} {policy : MultiTargetPolicy}
    {turn : Nat} {targets values : List Expr} {s t : State} {call : Call}
    (h : classifyAssignment registry policy turn targets values s = (.ok call, t)) :
    Classified turn t call := by
  unfold classifyAssignment at h
  split at h
  · simp at h
  · rw [Prod.mk.injEq] at h
    obtain ⟨g, -, rfl⟩ := selectGroup_cases h.1
    exact ⟨rfl, by simp [Call.on], by simp [Call.on], by simp [Call.on, bound?]⟩

/-- How a statement comes to its call: its parts are evaluated, and what they mean is read. -/
inductive Calls (registry : Registry) (policy : MultiTargetPolicy) (turn : Nat) (s : State) :
    Stmt → Call → State → Prop where
  | append {target value : Expr} {span : Span} {var attr : String} {v : Value} {t : State}
    (parts : appendTarget target = .ok (var, attr)) (item : eval registry value s = (.ok v, t)) :
    Calls registry policy turn s (.append target value span) (.on var turn (.append attr v)) t
  | call {func : Expr} {args : List Expr} {keywords : List Keyword} {callSpan span : Span}
    {v : Value} {t : State} {kind : CallKind}
    (made : eval registry (.call func args keywords callSpan) s = (.ok v, t))
    (means : callKind t v = .ok kind) :
    Calls registry policy turn s (.expr (.call func args keywords callSpan) span)
      (.on (varName turn) turn kind) t
  | name {var : String} {nameSpan span : Span} {v : Value} (found : s.find? var = some v) :
    Calls registry policy turn s (.expr (.name var nameSpan) span) (.on var turn (nameKind s v)) s
  | value {e : Expr} {span : Span} {v : Value} {t : State}
    (unnamed : ∀ var nameSpan, e ≠ .name var nameSpan) (result : eval registry e s = (.ok v, t)) :
    Calls registry policy turn s (.expr e span) (.on (varName turn) turn (.value v)) t
  | assign {target value : Expr} {span : Span} {call : Call} {t : State}
    (selected : classifyAssignment registry policy turn [target] [value] s = (.ok call, t)) :
    Calls registry policy turn s (.assign target value span) call t
  | tupleAssign {targets values : List Expr} {span : Span} {call : Call} {t : State}
    (selected : classifyAssignment registry policy turn targets values s = (.ok call, t)) :
    Calls registry policy turn s (.tupleAssign targets values span) call t

theorem calls_of_classifyStmt {registry : Registry} {policy : MultiTargetPolicy} {turn : Nat}
    {stmt : Stmt} {s t : State} {call : Call}
    (h : classifyStmt registry policy turn stmt s = (.ok call, t)) :
    Calls registry policy turn s stmt call t := by
  unfold classifyStmt at h
  split at h
  · split at h
    · simp at h
    · next htarget =>
      split at h
      · simp at h
      · next hvalue =>
        obtain ⟨⟨rfl⟩, rfl⟩ := Prod.mk.inj h
        exact .append htarget hvalue
  · split at h
    · simp at h
    · next hvalue =>
      obtain ⟨hcall, rfl⟩ := Prod.mk.inj h
      obtain ⟨kind, hkind, rfl⟩ := map_eq_ok.mp hcall
      exact .call hvalue hkind
  · split at h
    · simp at h
    · next hvalue =>
      obtain ⟨⟨rfl⟩, rfl⟩ := Prod.mk.inj h
      obtain ⟨hlookup, rfl⟩ := Prod.mk.inj hvalue
      exact .name (State.lookup_ok hlookup)
  · next hname =>
    split at h
    · simp at h
    · next hvalue =>
      obtain ⟨⟨rfl⟩, rfl⟩ := Prod.mk.inj h
      exact .value hname hvalue
  · exact .assign h
  · exact .tupleAssign h

theorem calls_of_classify {registry : Registry} {policy : MultiTargetPolicy} {turn : Nat}
    {p : Program} {s t : State} {call : Call}
    (h : classify registry policy turn p s = (.ok call, t)) :
    ∃ stmt, p.body = [stmt] ∧ Calls registry policy turn s stmt call t := by
  unfold classify at h
  split at h
  · simp at h
  · next stmt hbody => exact ⟨stmt, hbody, calls_of_classifyStmt h⟩
  · simp at h

theorem classify_classified {registry : Registry} {policy : MultiTargetPolicy} {turn : Nat}
    {p : Program} {s t : State} {call : Call}
    (h : classify registry policy turn p s = (.ok call, t)) : Classified turn t call := by
  obtain ⟨stmt, -, hcalls⟩ := calls_of_classify h
  cases hcalls with
  | append parts item =>
    exact ⟨rfl, by simp [Call.on], by simp [Call.on], by simp [Call.on, bound?]⟩
  | @call _ _ _ _ _ _ _ kind made means =>
    have hcommand : ∀ id assigned, kind = .command id assigned →
        assigned = false ∧ id < t.objects.length :=
      fun id assigned hid => callKind_command (hid ▸ means)
    refine ⟨rfl, fun id assigned hid => (hcommand id assigned hid).2, fun id hid => ?_,
      fun _ _ => .inl rfl⟩
    exact absurd (hcommand id true hid).1 (by simp)
  | name found => exact classified_nameKind turn found
  | value unnamed result =>
    exact ⟨rfl, by simp [Call.on], by simp [Call.on], fun _ _ => .inl rfl⟩
  | assign selected => exact classifyAssignment_classified selected
  | tupleAssign selected => exact classifyAssignment_classified selected

end Exec

end TaskDialogue
