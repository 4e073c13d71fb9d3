import TaskDialogue.Exec.Eval

/-!
# Literals in evaluation

An expression that is literal throughout has its value at once, and evaluation takes a list of this kind
for what it is without a look at the items. This is no more than a short cut. Evaluation item by item,
with the state passed on from each step to the next one until a step fails, comes to the same end for
every expression, and for literals the state is left alone on the way.
-/
namespace TaskDialogue

/-- A literal, or a list of which every item is literal. -/
inductive Expr.IsLiteral : Expr → Prop where
  | none (span : Span) : IsLiteral (.none span)
  | bool (b : Bool) (span : Span) : IsLiteral (.bool b span)
  | int (n : Int64) (span : Span) : IsLiteral (.int n span)
  | float (x : Double) (span : Span) : IsLiteral (.float x span)
  | str (text : String) (span : Span) : IsLiteral (.str text span)
  | list (es : List Expr) (span : Span) (items : ∀ e ∈ es, IsLiteral e) : IsLiteral (.list es span)

mutual

/-- Literals are what has a value at once. -/
theorem Expr.isSome_constant?_iff : ∀ e : Expr, e.constant?.isSome ↔ e.IsLiteral
  | .none span => by simpa [constant?] using .none span
  | .bool b span => by simpa [constant?] using .bool b span
  | .int n span => by simpa [constant?] using .int n span
  | .float x span => by simpa [constant?] using .float x span
  | .str text span => by simpa [constant?] using .str text span
  | .list es span => by
    rw [constant?, Option.isSome_map, isSome_constantAll?_iff es]
    refine ⟨.list es span, ?_⟩
    rintro (_ | _ | _ | _ | _ | ⟨_, _, items⟩)
    exact items
  | .name _ _ | .field _ _ _ | .subscript _ _ _ | .call _ _ _ _ => by
    refine ⟨by simp [constant?], ?_⟩
    rintro ⟨⟩

theorem Expr.isSome_constantAll?_iff :
    ∀ es : List Expr, (constantAll? es).isSome ↔ ∀ e ∈ es, e.IsLiteral
  | [] => by simp [constantAll?]
  | e :: es => by
    rw [List.forall_mem_cons, ← isSome_constant?_iff e, ← isSome_constantAll?_iff es, constantAll?]
    cases e.constant? <;> cases constantAll? es <;> simp

end

namespace Exec

/-! ### Evaluation item by item -/

/-- A step that reads and changes the state, and may fail. What it changed stays when it does. -/
abbrev Evaluation (α : Type) := ExceptT ExecError (StateM State) α

namespace Evaluation

variable {α β : Type} (s : State)

/-- What can be said without a change of the state. -/
def look (result : State → Except ExecError α) : Evaluation α := fun s => (result s, s)

@[simp] theorem look_apply (result : State → Except ExecError α) : look result s = (result s, s) := rfl

@[simp] theorem pure_apply (a : α) : (pure a : Evaluation α) s = (.ok a, s) := rfl

@[simp] theorem throw_apply (e : ExecError) : (throw e : Evaluation α) s = (.error e, s) := rfl

/-- A step goes on from where the one before it ended, unless that one failed. -/
theorem bind_apply (first : Evaluation α) (next : α → Evaluation β) :
    (first >>= next) s = match first s with
      | (.error e, t) => (.error e, t)
      | (.ok a, t) => next a t := by
  simp only [bind, ExceptT.bind, ExceptT.mk, StateT.bind]
  cases first s with
  | mk result t => cases result <;> rfl

end Evaluation

open Evaluation

mutual

/-- The value of an expression, with every list evaluated item by item. -/
def stepwise (registry : Registry) : Expr → Evaluation Value
  | .none _ => return .none
  | .bool b _ => return .bool b
  | .int n _ => return .int n
  | .float x _ => return .float x
  | .str text _ => return .str text
  | .list es _ => return .list (← stepwiseAll registry es)
  | .name id _ => look (·.lookup id)
  | .field base attr _ => look (evalField · base attr)
  | .subscript base index span => throw (unsupported (.subscript base index span))
  | .call func args keywords span => do
    let some name := func.name? | throw (unsupported (.call func args keywords span))
    let command ← look fun _ => registry.build name
    let accepted := command.schema.positional
    if accepted.length < args.length then
      throw (.tooManyPositional name args.length accepted.length)
    let command ← stepwisePositional registry args accepted command
    let command ← stepwiseKeywords registry keywords command
    fun s => (.ok (.object s.nextId), s.alloc (.command command))

def stepwiseAll (registry : Registry) : List Expr → Evaluation (List Value)
  | [] => return []
  | e :: es => return (← stepwise registry e) :: (← stepwiseAll registry es)

/-- Each argument goes to the next of the slots. -/
def stepwisePositional (registry : Registry) :
    List Expr → List String → Command → Evaluation Command
  | e :: es, slot :: slots, command => do
    let value ← stepwise registry e
    stepwisePositional registry es slots (← look fun _ => command.set slot value)
  | _, _, command => return command

def stepwiseKeywords (registry : Registry) : List Keyword → Command → Evaluation Command
  | [], command => return command
  | ⟨slot, e, _⟩ :: ks, command => do
    let value ← stepwise registry e
    stepwiseKeywords registry ks (← look fun _ => command.set slot value)

end

/-! ### The short cut -/

section

variable {registry : Registry}

theorem eval_of_constant? : ∀ {e : Expr} {v : Value} (s : State), e.constant? = some v →
    eval registry e s = (.ok v, s)
  | .none _, _, _, h | .bool _ _, _, _, h | .int _ _, _, _, h | .float _ _, _, _, h | .str _ _, _, _, h => by
    obtain rfl := Option.some.inj h
    rfl
  | .list es _, _, _, h => by
    obtain ⟨vs, hvs, rfl⟩ := Option.map_eq_some_iff.mp h
    rw [eval, hvs]
  | .name _ _, _, _, h | .field _ _ _, _, _, h | .subscript _ _ _, _, _, h | .call _ _ _ _, _, _, h => by
    simp [Expr.constant?] at h

/-- Item by item the literals of a list have their values, and the state is left alone. -/
theorem evalAll_of_constantAll? {es : List Expr} {vs : List Value} (s : State)
    (h : Expr.constantAll? es = some vs) : evalAll registry es s = (.ok vs, s) := by
  induction es generalizing vs with
  | nil =>
    obtain rfl := Option.some.inj h
    rfl
  | cons e es ih =>
    rw [Expr.constantAll?] at h
    split at h
    · next v rest hv hrest =>
      obtain rfl := Option.some.inj h
      simp only [evalAll, eval_of_constant? s hv, ih hrest]
    · cases h

/-- Every list is evaluated item by item. -/
theorem eval_list (es : List Expr) (span : Span) (s : State) :
    eval registry (.list es span) s = match evalAll registry es s with
      | (.error e, t) => (.error e, t)
      | (.ok values, t) => (.ok (.list values), t) := by
  rw [eval]
  split
  · next values hvalues => rw [evalAll_of_constantAll? s hvalues]
  · rcases evalAll registry es s with ⟨_ | _, t⟩ <;> rfl

mutual

/-- Without the short cut evaluation comes to the same end. -/
theorem stepwise_eq : ∀ (e : Expr) (s : State), stepwise registry e s = eval registry e s
  | .none _, _ | .bool _ _, _ | .int _ _, _ | .float _ _, _ | .str _ _, _ => rfl
  | .name _ _, _ | .field _ _ _, _ | .subscript _ _ _, _ => rfl
  | .list es span, s => by
    rw [stepwise, bind_apply, stepwiseAll_eq es s, eval_list]
    rcases evalAll registry es s with ⟨_ | _, t⟩ <;> rfl
  | .call func args keywords span, s => by
    rw [stepwise, eval]
    cases func.name? with
    | none => rfl
    | some name =>
      simp only [bind_apply, look_apply]
      cases registry.build name with
      | error e => rfl
      | ok command =>
        simp only
        split
        · rfl
        · rw [bind_apply, stepwisePositional_eq args]
          rcases fillPositional registry args command.schema.positional command s with ⟨_ | filled, t⟩
          · rfl
          · simp only [bind_apply, stepwiseKeywords_eq keywords]
            rcases fillKeywords registry keywords filled t with ⟨_ | full, u⟩ <;> rfl

theorem stepwiseAll_eq : ∀ (es : List Expr) (s : State),
    stepwiseAll registry es s = evalAll registry es s
  | [], _ => rfl
  | e :: es, s => by
    rw [stepwiseAll, evalAll, bind_apply, stepwise_eq e s]
    rcases eval registry e s with ⟨_ | value, t⟩
    · rfl
    · simp only [bind_apply, stepwiseAll_eq es t]
      rcases evalAll registry es t with ⟨_ | values, u⟩ <;> rfl

theorem stepwisePositional_eq : ∀ (es : List Expr) (slots : List String) (command : Command)
    (s : State), stepwisePositional registry es slots command s =
      fillPositional registry es slots command s
  | [], _, _, _ => rfl
  | _ :: _, [], _, _ => rfl
  | e :: es, slot :: slots, command, s => by
    rw [stepwisePositional, fillPositional, bind_apply, stepwise_eq e s]
    rcases eval registry e s with ⟨_ | value, t⟩
    · rfl
    · simp only [bind_apply, look_apply]
      cases command.set slot value with
      | error e => rfl
      | ok filled => exact stepwisePositional_eq es slots filled t

theorem stepwiseKeywords_eq : ∀ (ks : List Keyword) (command : Command) (s : State),
    stepwiseKeywords registry ks command s = fillKeywords registry ks command s
  | [], _, _ => rfl
  | ⟨slot, e, _⟩ :: ks, command, s => by
    rw [stepwiseKeywords, fillKeywords, bind_apply, stepwise_eq e s]
    rcases eval registry e s with ⟨_ | value, t⟩
    · rfl
    · simp only [bind_apply, look_apply]
      cases command.set slot value with
      | error e => rfl
      | ok filled => exact stepwiseKeywords_eq ks filled t

end

/-! ### From left to right -/

/-- These expressions have these values, one after another, each in the state that the one before it
left. -/
inductive Values (registry : Registry) : List Expr → State → List Value → State → Prop where
  | nil (s : State) : Values registry [] s [] s
  | cons {e : Expr} {es : List Expr} {s t u : State} {v : Value} {vs : List Value}
    (first : eval registry e s = (.ok v, t)) (rest : Values registry es t vs u) :
    Values registry (e :: es) s (v :: vs) u

/-- All items have values, or those before the first one that fails. -/
theorem evalAll_cases (es : List Expr) (s : State) :
    (∃ vs t, Values registry es s vs t ∧ evalAll registry es s = (.ok vs, t)) ∨
      ∃ before e after vs t error u, es = before ++ e :: after ∧ Values registry before s vs t ∧
        eval registry e t = (.error error, u) ∧ evalAll registry es s = (.error error, u) := by
  induction es generalizing s with
  | nil => exact .inl ⟨[], s, .nil s, rfl⟩
  | cons e es ih =>
    rw [evalAll]
    rcases hfirst : eval registry e s with ⟨error | v, t⟩
    · exact .inr ⟨[], e, es, [], s, error, t, rfl, .nil s, hfirst, rfl⟩
    · obtain ⟨vs, u, hvalues, hrest⟩ | ⟨before, f, after, vs, u, error, w, rfl, hvalues, hfails, hrest⟩ := ih t
      · exact .inl ⟨v :: vs, u, .cons hfirst hvalues, by simp only [hrest]⟩
      · exact .inr ⟨e :: before, f, after, v :: vs, u, error, w, rfl, .cons hfirst hvalues, hfails,
          by simp only [hrest]⟩

/-- An expression has a value at once exactly if it is literal, and this is its value where every list
is evaluated item by item; the state is left alone. Any expression comes to the same end with the short
cut and without it. A list has the values of its items, which are evaluated from left to right, or it
fails as the first of them that does. -/
theorem eval_shortcut (registry : Registry) (e : Expr) (es : List Expr) (span : Span) (s : State) :
    (e.constant?.isSome ↔ e.IsLiteral) ∧
      (∀ v, e.constant? = some v →
        stepwise registry e s = (.ok v, s) ∧ eval registry e s = (.ok v, s)) ∧
      stepwise registry e s = eval registry e s ∧
      ((∃ vs t, Values registry es s vs t ∧ eval registry (.list es span) s = (.ok (.list vs), t)) ∨
        ∃ before f after vs t error u, es = before ++ f :: after ∧ Values registry before s vs t ∧
          eval registry f t = (.error error, u) ∧
          eval registry (.list es span) s = (.error error, u)) := by
  refine ⟨e.isSome_constant?_iff, fun v hv => ?_, stepwise_eq e s, ?_⟩
  · have heval : eval registry e s = (.ok v, s) := eval_of_constant? s hv
    exact ⟨(stepwise_eq e s).trans heval, heval⟩
  · rw [eval_list]
    obtain ⟨vs, t, hvalues, hall⟩ |
      ⟨before, f, after, vs, t, error, u, hes, hvalues, hfails, hall⟩ := evalAll_cases es s
    · exact .inl ⟨vs, t, hvalues, by rw [hall]⟩
    · exact .inr ⟨before, f, after, vs, t, error, u, hes, hvalues, hfails, by rw [hall]⟩

/-- A list within a list. -/
theorem eval_shortcut_nested :
    let e : Expr := .list [.int 1 ⟨1, 2⟩, .list [.str "a" ⟨5, 8⟩, .none ⟨10, 14⟩] ⟨4, 15⟩] ⟨0, 16⟩
    let v : Value := .list [.int 1, .list [.str "a", .none]]
    e.constant? = some v ∧ ∀ s, stepwise (.ofSchemas []) e s = (.ok v, s) := by
  intro e v
  have hv : e.constant? = some v := rfl
  exact ⟨hv, fun s => ((eval_shortcut (.ofSchemas []) e [] ⟨0, 0⟩ s).2.1 v hv).1⟩

end

end Exec

end TaskDialogue
