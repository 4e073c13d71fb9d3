import TaskDialogue.Proofs.Task.Registry
import TaskDialogue.Proofs.Turn.Effects
import TaskDialogue.Proofs.Turn.Sequence

/-!
# Turns over an extended registry

A registry extends another when every name of the other means in it what it means there. What is
evaluated, classified or executed with success over a registry comes out the same over each of its
extensions: only a name that means nothing yet can get a meaning, and a call of such a name fails.
To add schemas to a domain extends its registry, whatever they are called.
-/
namespace TaskDialogue

/-- Every name of a registry means the same in the other. -/
def Registry.Extends (r r' : Registry) : Prop :=
  ∀ name schema, r.get? name = some schema → r'.get? name = some schema

namespace Registry

variable {r r' : Registry}

theorem Extends.build (h : r.Extends r') {name : String} {c : Command}
    (hbuild : r.build name = .ok c) : r'.build name = .ok c := by
  unfold Registry.build at hbuild ⊢
  split at hbuild
  · next schema hschema =>
    rw [h name schema hschema]
    exact hbuild
  · simp at hbuild

/-- Of schemas with one name the first counts, so that more of them at the end change nothing. -/
theorem extends_ofSchemas (domain more : List CommandSchema) :
    (ofSchemas domain).Extends (ofSchemas (domain ++ more)) := by
  intro name schema h
  rw [get?_ofSchemas] at h ⊢
  rw [← List.append_assoc, List.find?_append, h, Option.some_or]

/-- The auxiliary commands have five names. -/
theorem find?_auxiliary {schema : CommandSchema} (h : schema ∈ auxiliary) :
    auxiliary.find? (·.name = schema.name) = some schema := by
  simp only [auxiliary, List.mem_cons, List.not_mem_nil, or_false] at h
  obtain rfl | rfl | rfl | rfl | rfl := h <;> rfl

/-- No domain changes what an auxiliary command is. -/
theorem get?_auxiliary (domain : List CommandSchema) {schema : CommandSchema}
    (h : schema ∈ auxiliary) : (ofSchemas domain).get? schema.name = some schema := by
  rw [get?_ofSchemas, List.find?_append, find?_auxiliary h, Option.some_or]

end Registry

namespace Exec

variable {r r' : Registry}

mutual

/-- What evaluates with success does so over every extension, to the same value and state. -/
theorem eval_extends (hr : r.Extends r') : ∀ (e : Expr) {s t : State} {v : Value},
    eval r e s = (.ok v, t) → eval r' e s = (.ok v, t)
  | .none _, _, _, _, h | .bool _ _, _, _, _, h | .int _ _, _, _, _, h | .float _ _, _, _, _, h
  | .str _ _, _, _, _, h | .name _ _, _, _, _, h | .field _ _ _, _, _, _, h
  | .subscript _ _ _, _, _, _, h => h
  | .list es _, s, t, v, h => by
    simp only [eval] at h ⊢
    split at h
    · exact h
    · split at h
      · next values u heq =>
        rw [evalAll_extends hr es heq]
        exact h
      · simp at h
  | .call func args keywords _, s, t, v, h => by
    simp only [eval] at h ⊢
    split at h
    · exact h
    · next name _ =>
      split at h
      · simp at h
      · next command hbuild =>
        rw [hr.build hbuild]
        dsimp only
        split at h
        · simp at h
        · next hargs =>
          rw [if_neg hargs]
          split at h
          · simp at h
          · next filled u hfilled =>
            rw [fillPositional_extends hr args _ hfilled]
            dsimp only
            split at h
            · simp at h
            · next full w hfull =>
              rw [fillKeywords_extends hr keywords hfull]
              exact h

theorem evalAll_extends (hr : r.Extends r') : ∀ (es : List Expr) {s t : State} {vs : List Value},
    evalAll r es s = (.ok vs, t) → evalAll r' es s = (.ok vs, t)
  | [], _, _, _, h => h
  | e :: es, s, t, vs, h => by
    simp only [evalAll] at h ⊢
    split at h
    · simp at h
    · next value u hvalue =>
      rw [eval_extends hr e hvalue]
      dsimp only
      split at h
      · simp at h
      · next values w hvalues =>
        rw [evalAll_extends hr es hvalues]
        exact h

theorem fillPositional_extends (hr : r.Extends r') : ∀ (es : List Expr) (slots : List String)
    {command full : Command} {s t : State},
    fillPositional r es slots command s = (.ok full, t) →
      fillPositional r' es slots command s = (.ok full, t)
  | [], _, _, _, _, _, h => h
  | _ :: _, [], _, _, _, _, h => h
  | e :: es, slot :: slots, command, full, s, t, h => by
    simp only [fillPositional] at h ⊢
    split at h
    · simp at h
    · next value u hvalue =>
      rw [eval_extends hr e hvalue]
      dsimp only
      split at h
      · simp at h
      · next filled _ => exact fillPositional_extends hr es slots h

theorem fillKeywords_extends (hr : r.Extends r') : ∀ (ks : List Keyword)
    {command full : Command} {s t : State},
    fillKeywords r ks command s = (.ok full, t) → fillKeywords r' ks command s = (.ok full, t)
  | [], _, _, _, _, h => h
  | ⟨slot, e, _⟩ :: ks, command, full, s, t, h => by
    simp only [fillKeywords] at h ⊢
    split at h
    · simp at h
    · next value u hvalue =>
      rw [eval_extends hr e hvalue]
      dsimp only
      split at h
      · simp at h
      · exact fillKeywords_extends hr ks h

end

theorem assignmentGroups_extends (hr : r.Extends r') (targets es : List Expr)
    {groups groups' : List (String × List AttributeUpdate)} {s t : State}
    (h : assignmentGroups r targets es groups s = (.ok groups', t)) :
    assignmentGroups r' targets es groups s = (.ok groups', t) := by
  induction targets generalizing es groups s with
  | nil => exact h
  | cons target targets ih =>
    cases es with
    | nil => exact h
    | cons e es =>
      simp only [assignmentGroups] at h ⊢
      split at h
      · simp at h
      · split at h
        · simp at h
        · next value u hvalue =>
          rw [eval_extends hr e hvalue]
          exact ih es h

theorem classifyAssignment_extends (hr : r.Extends r') {policy : MultiTargetPolicy} {turn : Nat}
    {targets values : List Expr} {s t : State} {call : Call}
    (h : classifyAssignment r policy turn targets values s = (.ok call, t)) :
    classifyAssignment r' policy turn targets values s = (.ok call, t) := by
  simp only [classifyAssignment] at h ⊢
  split at h
  · simp at h
  · next groups u hgroups =>
    rw [assignmentGroups_extends hr targets values hgroups]
    exact h

theorem classifyStmt_extends (hr : r.Extends r') {policy : MultiTargetPolicy} {turn : Nat}
    {stmt : Stmt} {s t : State} {call : Call}
    (h : classifyStmt r policy turn stmt s = (.ok call, t)) :
    classifyStmt r' policy turn stmt s = (.ok call, t) := by
  cases stmt with
  | append target value _ =>
    simp only [classifyStmt] at h ⊢
    split at h
    · simp at h
    · split at h
      · simp at h
      · next hvalue =>
        rw [eval_extends hr value hvalue]
        exact h
  | assign target value _ => exact classifyAssignment_extends hr h
  | tupleAssign targets values _ => exact classifyAssignment_extends hr h
  | expr e _ =>
    cases e with
    | none | bool | int | float | str | list | name | field | subscript | call =>
      simp only [classifyStmt] at h ⊢
      split at h
      · simp at h
      · next hvalue =>
        rw [eval_extends hr _ hvalue]
        exact h

theorem classify_extends (hr : r.Extends r') {policy : MultiTargetPolicy} {turn : Nat}
    {p : Program} {s t : State} {call : Call} (h : classify r policy turn p s = (.ok call, t)) :
    classify r' policy turn p s = (.ok call, t) := by
  unfold classify at h ⊢
  split at h
  · simp at h
  · exact classifyStmt_extends hr h
  · simp at h

end Exec

namespace Executor

variable {x : Executor} {r : Registry} {turn : Nat} {text : String} {s : State}

theorem call?_extends (hr : x.registry.Extends r) {call : Call} {u : State}
    (h : x.call? turn text s = some (call, u)) :
    { x with registry := r }.call? turn text s = some (call, u) := by
  unfold call? at h
  split at h
  · simp at h
  · next p followed hprepare =>
    split at h
    · simp at h
    · next hclassify =>
      have hprepare' : { x with registry := r }.prepare text = .ok (p, followed) := hprepare
      simp only [call?, hprepare', classify, Exec.classify_extends hr hclassify]
      exact h

/-- A turn that finds its call ends over an extension as it ends without it, also if it fails
then. -/
theorem execute_extends (hr : x.registry.Extends r) (h : x.call? turn text s ≠ none) :
    { x with registry := r }.execute turn text s = x.execute turn text s := by
  obtain ⟨⟨call, u⟩, hcall⟩ := Option.ne_none_iff_exists'.mp h
  rw [execute_of_call hcall, execute_of_call (call?_extends hr hcall)]

theorem call?_ne_none (h : (x.execute turn text s).1.isOk = true) : x.call? turn text s ≠ none := by
  intro hnone
  obtain ⟨e, he⟩ := (execute_of_no_call hnone).1
  simp [he, Except.isOk, Except.toBool] at h

/-- Turns that all succeed do so over an extension, each with the same result and state. -/
theorem trace_extends (hr : x.registry.Extends r) {lines : List (Nat × String)}
    (h : ∀ ended ∈ x.trace lines s, ended.1.isOk = true) :
    { x with registry := r }.trace lines s = x.trace lines s := by
  induction lines generalizing s with
  | nil => rfl
  | cons line rest ih =>
    obtain ⟨turn, text⟩ := line
    obtain ⟨hok, hrest⟩ := List.forall_mem_cons.mp h
    have hline := execute_extends hr (call?_ne_none hok)
    rw [trace, trace, hline, ih hrest]

/-- Schemas that are added to a domain, whatever they are and whatever their names, leave turns that
all succeed as they are: each succeeds with the same result and leaves the same state, from any
state on, a new one or not. The auxiliary commands are the same in every domain. -/
theorem trace_ofSchemas_append (domain more : List CommandSchema) (rewriter : Rewriter)
    (options : ExecutorOptions) (lines : List (Nat × String)) (s : State)
    (h : ∀ ended ∈ trace ⟨.ofSchemas domain, rewriter, options⟩ lines s, ended.1.isOk = true) :
    trace ⟨.ofSchemas (domain ++ more), rewriter, options⟩ lines s =
        trace ⟨.ofSchemas domain, rewriter, options⟩ lines s ∧
      ∀ schema ∈ Registry.auxiliary,
        (Registry.ofSchemas domain).get? schema.name = some schema ∧
          (Registry.ofSchemas (domain ++ more)).get? schema.name = some schema :=
  ⟨trace_extends (Registry.extends_ofSchemas domain more) h, fun _ hschema =>
    ⟨Registry.get?_auxiliary domain hschema, Registry.get?_auxiliary (domain ++ more) hschema⟩⟩

/-- A domain with one task to which another task of its name is added, and a task with the name of
an auxiliary command. -/
theorem trace_ofSchemas_append_alarms :
    let alarm : CommandSchema :=
      ⟨"create_alarm", .intent, [⟨"time", .str, true, [], false⟩], ["time"], false, none⟩
    let more : List CommandSchema :=
      [⟨"create_alarm", .intent, [], [], false, none⟩, ⟨"say", .query "Alarm", [], [], true, none⟩]
    let lines := [(0, "create_alarm(\"8:30\")"), (1, "say(x0)")]
    let x : Executor := ⟨.ofSchemas [alarm], Sugar.defaults, .defaults⟩
    let y : Executor := ⟨.ofSchemas ([alarm] ++ more), Sugar.defaults, .defaults⟩
    let s := State.new .empty
    (∀ ended ∈ x.trace lines s, ended.1.isOk = true) ∧ y.trace lines s = x.trace lines s ∧
      ∀ schema ∈ Registry.auxiliary,
        x.registry.get? schema.name = some schema ∧ y.registry.get? schema.name = some schema := by
  intro alarm more lines x y s
  have h : ∀ ended ∈ x.trace lines s, ended.1.isOk = true := by
    have hall : (x.trace lines s).all (·.1.isOk) = true := by decide +kernel
    exact List.all_eq_true.mp hall
  exact ⟨h, trace_ofSchemas_append [alarm] more Sugar.defaults .defaults lines s h⟩

end Executor

end TaskDialogue
