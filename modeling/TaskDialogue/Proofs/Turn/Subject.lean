import TaskDialogue.Proofs.Turn.Assignment
import TaskDialogue.Proofs.Turn.Dialogue

/-!
# What a turn is about

An assignment, an append and a bare name address a variable, and so do `confirm(x)` and
`resume(x)`. Every other statement is about the variable of its turn, and advances at most the
command that was made for it. This is read off the statement, whatever the state is.
-/
namespace TaskDialogue

/-- The variable that a statement addresses: the target of an append or an assignment, which of
several targets is the one that is written to most often, or a bare name. -/
def Stmt.subject? : Stmt → Option String
  | .append target _ _ => (Exec.appendTarget target).toOption.map (·.1)
  | .assign target value _ => mostFrequent (Exec.targetVars [target] [value])
  | .tupleAssign targets values _ => mostFrequent (Exec.targetVars targets values)
  | .expr (.name var _) _ => some var
  | .expr _ _ => none

/-- The variable that a statement addresses as it is written, where `confirm(x)` and `resume(x)`
address `x`. -/
def Stmt.writtenSubject? (stmt : Stmt) : Option String :=
  (Sugar.defaults.findSome? fun sugar => (sugar.match? ⟨[stmt]⟩).map (·.1)).or stmt.subject?

/-- A call that was found between two states advances nothing but the command that was made last,
if it advances anything. -/
def CallKind.Made (s t : State) : CallKind → Prop
  | command id assigned => assigned = false ∧ s.objects.length ≤ id ∧ t.objects.length = id + 1
  | perform _ | next _ | value _ => True
  | assignment _ | append _ _ => False

namespace Exec

/-- What a call is on that was found between two states: the variable that is addressed, and then
no new command is run, or else the variable of the turn, and then no other is advanced. -/
inductive Addresses (turn : Nat) (s t : State) (call : Call) : Option String → Prop where
  | subject (old : ∀ id, call.kind ≠ .command id false) : Addresses turn s t call (some call.var)
  | turn (var : call.var = varName turn) (made : call.kind.Made s t) : Addresses turn s t call none

variable {registry : Registry} {policy : MultiTargetPolicy} {turn : Nat} {s t : State}
  {call : Call}

theorem made_callKind {id : Nat} {kind : CallKind} (hid : s.objects.length ≤ id)
    (hlast : t.objects.length = id + 1) (h : callKind t (.object id) = .ok kind) :
    kind.Made s t := by
  simp only [callKind] at h
  split at h
  · split at h
    · simp only [Except.ok.injEq] at h
      exact h ▸ trivial
    · obtain ⟨n, -, rfl⟩ := map_eq_ok.mp h
      trivial
    · obtain ⟨entity, -, rfl⟩ := map_eq_ok.mp h
      trivial
    · simp only [Except.ok.injEq] at h
      exact h ▸ ⟨rfl, hid, hlast⟩
  · simp only [Except.ok.injEq] at h
    exact h ▸ trivial

theorem classifyAssignment_addresses {targets es : List Expr}
    (h : classifyAssignment registry policy turn targets es s = (.ok call, t)) :
    Addresses turn s t call (mostFrequent (targetVars targets es)) := by
  rw [classifyAssignment_var h]
  refine .subject fun id hid => ?_
  unfold classifyAssignment at h
  split at h
  · simp at h
  · rw [Prod.mk.injEq] at h
    obtain ⟨g, -, rfl⟩ := selectGroup_cases h.1
    cases hid

/-- The call of a statement is on the variable that the statement addresses, if there is one. -/
theorem Calls.addresses {stmt : Stmt} (h : Calls registry policy turn s stmt call t) :
    Addresses turn s t call stmt.subject? := by
  cases h with
  | @append target value span var attr v _ parts item =>
    have hsubject : (Stmt.append target value span).subject? = some var := by
      simp [Stmt.subject?, parts, Except.toOption]
    rw [hsubject]
    refine .subject fun id hid => ?_
    cases hid
  | call made means =>
    obtain ⟨before, c, hgrows, rfl, rfl⟩ := eval_call_ok made
    have hlast : (before.alloc (.command c)).objects.length = before.nextId + 1 := by
      simp [State.alloc, State.nextId]
    exact .turn rfl (made_callKind hgrows.length_le hlast means)
  | name found =>
    refine .subject fun id hid => ?_
    simp only [Call.on, nameKind] at hid
    split at hid
    · split at hid <;> cases hid
    · cases hid
  | @value e span v _ unnamed result =>
    have hsubject : (Stmt.expr e span).subject? = none := by
      cases e <;> first | rfl | exact absurd rfl (unnamed _ _)
    rw [hsubject]
    exact .turn rfl trivial
  | assign selected => exact classifyAssignment_addresses selected
  | tupleAssign selected => exact classifyAssignment_addresses selected

theorem classify_addresses {p : Program} (h : classify registry policy turn p s = (.ok call, t)) :
    ∃ stmt, p.single? = some stmt ∧ Addresses turn s t call stmt.subject? := by
  obtain ⟨stmt, hbody, hcalls⟩ := calls_of_classify h
  exact ⟨stmt, by simp [Program.single?, hbody], hcalls.addresses⟩

/-- A call stays on what it is on when the task of a recommendation is told of it. -/
theorem Addresses.followRecommendation {subject : Option String}
    (h : Addresses turn s t call subject) :
    Addresses turn s t.followRecommendation call subject := by
  cases h with
  | turn var made =>
    refine .turn var ?_
    cases hkind : call.kind with
    | command id assigned =>
      rw [hkind] at made
      obtain ⟨hassigned, hid, hlast⟩ := made
      exact ⟨hassigned, hid, by rw [State.length_followRecommendation, hlast]⟩
    | perform _ | next _ | value _ => trivial
    | assignment _ | append _ _ =>
      rw [hkind] at made
      exact made.elim
  | subject old => exact .subject old

end Exec

/-! ### Turn texts -/

/-- A sugar gives another program only for a single call. -/
theorem Sugar.expand_of_single?_eq_none {p : Program} (sugar : Sugar) (h : p.single? = none) :
    sugar.expand p = p := by
  have hmatch : sugar.match? p = none := by
    unfold match?
    split
    · next hbody => simp [Program.single?, hbody] at h
    · rfl
  rw [expand, hmatch]

/-- The expanded statement addresses what the statement addresses as it is written. -/
theorem Sugar.subject?_expand (stmt : Stmt) :
    (expandAll defaults ⟨[stmt]⟩).single?.bind Stmt.subject? = stmt.writtenSubject? := by
  have hother : ∀ sugar : Sugar, sugar.match? ⟨[stmt]⟩ = none → sugar.expand ⟨[stmt]⟩ = ⟨[stmt]⟩ :=
    fun sugar hnone => by rw [expand, hnone]
  unfold Stmt.writtenSubject?
  simp only [expandAll, defaults, List.foldl_cons, List.foldl_nil, List.findSome?_cons,
    List.findSome?_nil]
  cases hconfirm : confirm.match? ⟨[stmt]⟩ with
  | some found =>
    obtain ⟨var, varSpan, span⟩ := found
    have hexpand : confirm.expand ⟨[stmt]⟩ = ⟨[confirm.meaning var varSpan span]⟩ := by
      rw [expand, hconfirm]
    have hagain : resume.expand ⟨[confirm.meaning var varSpan span]⟩ =
        ⟨[confirm.meaning var varSpan span]⟩ := rfl
    rw [hexpand, hagain]
    simp [Program.single?, meaning, Stmt.subject?, Exec.targetVars, Exec.assignmentTarget,
      Except.toOption, mostFrequent]
  | none =>
    rw [hother confirm hconfirm]
    cases hresume : resume.match? ⟨[stmt]⟩ with
    | some found =>
      obtain ⟨var, varSpan, span⟩ := found
      have hexpand : resume.expand ⟨[stmt]⟩ = ⟨[resume.meaning var varSpan span]⟩ := by
        rw [expand, hresume]
      rw [hexpand]
      rfl
    | none =>
      rw [hother resume hresume]
      rfl

namespace Executor

/-- The variable that a turn addresses, by its statement when it has been rewritten. -/
def subject? (x : Executor) (text : String) : Option String :=
  (x.prepare text).toOption.bind fun prepared => prepared.1.single?.bind Stmt.subject?

/-- Whether a turn text carries the follow marker. -/
def follows (x : Executor) (text : String) : Bool :=
  (splitFollowMarker? x.options.followMarker.toList text.toList).any (·.2)

variable {x : Executor} {turn : Nat} {text : String} {s u : State} {call : Call}

theorem follows_of_prepare {p : Program} {followed : Bool}
    (h : x.prepare text = .ok (p, followed)) : x.follows text = followed := by
  unfold prepare at h
  split at h
  · simp at h
  · next expression marked hsplit =>
    obtain ⟨q, -, hq⟩ := bind_eq_ok.mp h
    obtain ⟨-, rfl⟩ := Prod.mk.inj (Except.ok.inj hq)
    simp [follows, hsplit]

/-- The call of a turn is on the variable that the turn addresses, if there is one. -/
theorem call?_addresses (h : x.call? turn text s = some (call, u)) :
    ∃ w, Exec.Makes (Command.Built x.registry) s w ∧
      u = (if x.follows text then w.followRecommendation else w) ∧
        Exec.Addresses turn s u call (x.subject? text) := by
  unfold call? at h
  split at h
  · simp at h
  · next p followed hprepare =>
    have hmakes := Exec.classify_builds x.registry x.options.multiTargetPolicy turn p s
    split at h
    · simp at h
    · next found w hclassify =>
      simp only [Option.some.injEq, Prod.mk.injEq] at h
      obtain ⟨rfl, rfl⟩ := h
      rw [classify] at hclassify
      rw [hclassify] at hmakes
      obtain ⟨stmt, hsingle, haddresses⟩ := Exec.classify_addresses hclassify
      have hsubject : x.subject? text = stmt.subject? := by
        simp [subject?, hprepare, Except.toOption, hsingle]
      rw [follows_of_prepare hprepare, hsubject]
      refine ⟨w, hmakes, rfl, ?_⟩
      cases followed with
      | true => exact haddresses.followRecommendation
      | false => exact haddresses

/-- Where only the sugars are expanded, a turn addresses what its statement addresses as it is
written. -/
theorem subject?_defaults (x : Executor) (text : String) :
    subject? { x with rewriter := Sugar.defaults } text =
      (x.statement? text).bind Stmt.writtenSubject? := by
  unfold subject? statement? prepare
  cases hsplit : splitFollowMarker? x.options.followMarker.toList text.toList with
  | none => rfl
  | some cut =>
    obtain ⟨expression, followed⟩ := cut
    cases hparse : Program.parse (String.ofList expression) with
    | error e => simp [hparse, Except.toOption, Bind.bind, Except.bind]
    | ok p =>
      simp only [hparse, Rewriter.apply_ofSugars, Bind.bind, Except.bind, pure, Except.pure,
        Except.toOption, Option.bind]
      cases hsingle : p.single? with
      | none =>
        have hsame : Sugar.expandAll Sugar.defaults p = p := by
          simp [Sugar.expandAll, Sugar.defaults, Sugar.expand_of_single?_eq_none _ hsingle]
        rw [hsame, hsingle]
      | some stmt =>
        obtain rfl : p = ⟨[stmt]⟩ := Program.eq_of_single? hsingle
        exact Sugar.subject?_expand stmt

end Executor

end TaskDialogue
