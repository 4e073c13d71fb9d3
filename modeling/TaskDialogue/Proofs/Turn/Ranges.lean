import TaskDialogue.Exec.Executor
import TaskDialogue.Proofs.Syntax.Erasure
import TaskDialogue.Proofs.Syntax.Rewriting

/-!
# Execution does not look at ranges

What an expression evaluates to, which call a statement is, what rewriting makes of a program and
how all of this fails depend on the trees alone, not on the places in a text that they were read
from. So programs that differ in ranges at most are executed alike.
-/
namespace TaskDialogue

@[simp] theorem Expr.name?_erase (e : Expr) : e.erase.name? = e.name? := by
  cases e <;> rfl

@[simp] theorem Expr.shape_erase (e : Expr) : e.erase.shape = e.shape := by
  cases e <;> rfl

@[simp] theorem length_eraseAll (es : List Expr) : (eraseAll es).length = es.length := by
  induction es with
  | nil => rfl
  | cons e es ih => rw [eraseAll, List.length_cons, ih, List.length_cons]

mutual

theorem Expr.constant?_erase : ∀ e : Expr, e.erase.constant? = e.constant?
  | .none _ | .bool _ _ | .int _ _ | .float _ _ | .str _ _ | .name _ _ | .field _ _ _
  | .subscript _ _ _ | .call _ _ _ _ => by simp only [Expr.erase, Expr.constant?]
  | .list es _ => by simp only [Expr.erase, Expr.constant?, Expr.constantAll?_erase es]

theorem Expr.constantAll?_erase : ∀ es : List Expr,
    Expr.constantAll? (eraseAll es) = Expr.constantAll? es
  | [] => rfl
  | e :: es => by
    simp only [eraseAll, Expr.constantAll?, Expr.constant?_erase e, Expr.constantAll?_erase es]

end

namespace Exec

@[simp] theorem unsupported_erase (e : Expr) : unsupported e.erase = unsupported e := by
  cases e with
  | field base _ _ => simp only [Expr.erase, unsupported, Expr.shape_erase]
  | call func _ _ _ => simp only [Expr.erase, unsupported, Expr.shape_erase]
  | _ => rfl

@[simp] theorem subscriptIndex_erase (e : Expr) : subscriptIndex e.erase = subscriptIndex e := by
  cases e <;> rfl

@[simp] theorem evalField_erase (s : State) (base : Expr) (attr : String) :
    evalField s base.erase attr = evalField s base attr := by
  cases base with
  | name var _ => rfl
  | subscript base index span =>
    cases base with
    | name var _ => simp only [Expr.erase, evalField, subscriptIndex_erase]
    | _ => rfl
  | field base _ _ => simp [Expr.erase, evalField, unsupported]
  | call func _ _ _ => simp [Expr.erase, evalField, unsupported]
  | _ => rfl

variable (registry : Registry)

mutual

/-- An expression has the same value wherever it stands, or fails in the same way. -/
theorem eval_erase : ∀ (e : Expr) (s : State), eval registry e.erase s = eval registry e s
  | .none _, _ | .bool _ _, _ | .int _ _, _ | .float _ _, _ | .str _ _, _ | .name _ _, _ => by
    simp only [Expr.erase, eval]
  | .list es _, s => by
    simp only [Expr.erase, eval, Expr.constantAll?_erase es, evalAll_erase es]
  | .field base attr _, s => by simp only [Expr.erase, eval, evalField_erase]
  | .subscript base index span, s => by
    have h := unsupported_erase (.subscript base index span)
    simp only [Expr.erase] at h
    simp only [Expr.erase, eval, h]
  | .call func args keywords span, s => by
    have h := unsupported_erase (.call func args keywords span)
    simp only [Expr.erase] at h
    simp only [Expr.erase, eval, Expr.name?_erase, length_eraseAll, h, fillPositional_erase args,
      fillKeywords_erase keywords]

theorem evalAll_erase : ∀ (es : List Expr) (s : State),
    evalAll registry (eraseAll es) s = evalAll registry es s
  | [], _ => rfl
  | e :: es, s => by simp only [eraseAll, evalAll, eval_erase e, evalAll_erase es]

theorem fillPositional_erase : ∀ (es : List Expr) (slots : List String) (command : Command)
    (s : State),
    fillPositional registry (eraseAll es) slots command s = fillPositional registry es slots command s
  | [], _, _, _ => rfl
  | _ :: _, [], _, _ => by simp only [eraseAll, fillPositional]
  | e :: es, slot :: slots, command, s => by
    simp only [eraseAll, fillPositional, eval_erase e, fillPositional_erase es]

theorem fillKeywords_erase : ∀ (ks : List Keyword) (command : Command) (s : State),
    fillKeywords registry (eraseKeywords ks) command s = fillKeywords registry ks command s
  | [], _, _ => rfl
  | ⟨name, e, _⟩ :: ks, command, s => by
    simp only [eraseKeywords, fillKeywords, eval_erase e, fillKeywords_erase ks]

end

/-! ### Calls -/

theorem assignmentTarget_erase (e : Expr) : assignmentTarget e.erase = assignmentTarget e := by
  cases e with
  | field base attr span =>
    cases base with
    | name var _ => rfl
    | subscript base index _ =>
      cases base with
      | name var _ => simp only [Expr.erase, assignmentTarget, subscriptIndex_erase]
      | _ => rfl
    | _ => rfl
  | _ => rfl

theorem appendTarget_erase (e : Expr) : appendTarget e.erase = appendTarget e := by
  cases e with
  | field base attr span => cases base <;> rfl
  | _ => rfl

theorem assignmentGroups_erase (targets es : List Expr)
    (groups : List (String × List AttributeUpdate)) (s : State) :
    assignmentGroups registry (eraseAll targets) (eraseAll es) groups s =
      assignmentGroups registry targets es groups s := by
  induction targets generalizing es groups s with
  | nil => rfl
  | cons target targets ih =>
    cases es with
    | nil => rfl
    | cons e es =>
      simp only [eraseAll, assignmentGroups, assignmentTarget_erase, eval_erase, ih]

theorem classifyAssignment_erase (policy : MultiTargetPolicy) (turn : Nat)
    (targets values : List Expr) (s : State) :
    classifyAssignment registry policy turn (eraseAll targets) (eraseAll values) s =
      classifyAssignment registry policy turn targets values s := by
  simp only [classifyAssignment, assignmentGroups_erase]

theorem classifyStmt_erase (policy : MultiTargetPolicy) (turn : Nat) (stmt : Stmt) (s : State) :
    classifyStmt registry policy turn stmt.erase s = classifyStmt registry policy turn stmt s := by
  cases stmt with
  | assign target value span =>
    exact classifyAssignment_erase registry policy turn [target] [value] s
  | tupleAssign targets values span =>
    exact classifyAssignment_erase registry policy turn targets values s
  | append target value span =>
    simp only [Stmt.erase, classifyStmt, appendTarget_erase, eval_erase]
  | expr e span =>
    have heval := eval_erase registry e s
    cases e <;> simp only [Expr.erase] at heval <;>
      simp only [Stmt.erase, Expr.erase, classifyStmt, heval]

theorem classify_erase (policy : MultiTargetPolicy) (turn : Nat) (p : Program) (s : State) :
    classify registry policy turn p.erase s = classify registry policy turn p s := by
  obtain ⟨body⟩ := p
  match body with
  | [] => rfl
  | [stmt] => exact classifyStmt_erase registry policy turn stmt s
  | _ :: _ :: _ => simp [classify, Program.erase]

end Exec

/-! ### Rewriting -/

theorem Expr.eq_name_of_erase {e : Expr} {id : String} {span : Span} (h : e.erase = .name id span) :
    ∃ place, e = .name id place := by
  cases e <;> simp [Expr.erase] at h
  exact ⟨_, by rw [h.1]⟩

namespace Sugar

variable {sugar : Sugar} {p : Program} {var : String} {varSpan span : Span}

/-- A call is one wherever it stands. -/
theorem Calls.of_erase (h : sugar.Calls p.erase var varSpan span) :
    ∃ varSpan span, sugar.Calls p var varSpan span := by
  obtain ⟨nameSpan, callSpan, heq⟩ := h
  obtain ⟨body⟩ := p
  rw [Program.erase, Program.mk.injEq, List.map_eq_singleton_iff] at heq
  obtain ⟨stmt, rfl, hstmt⟩ := heq
  cases stmt with
  | assign | tupleAssign | append => simp [Stmt.erase] at hstmt
  | expr e s =>
    rw [Stmt.erase, Stmt.expr.injEq] at hstmt
    have hcall := hstmt.1
    cases e <;> simp only [Expr.erase, Expr.call.injEq, reduceCtorEq] at hcall
    next func args keywords place =>
    obtain ⟨hfunc, hargs, hkeywords, -⟩ := hcall
    obtain ⟨funcSpan, rfl⟩ := Expr.eq_name_of_erase hfunc
    obtain ⟨arg, argSpan, rfl, harg⟩ : ∃ arg argSpan, args = [arg] ∧ arg = .name var argSpan := by
      cases args with
      | nil => simp [eraseAll] at hargs
      | cons arg rest =>
        cases rest with
        | cons _ _ => simp [eraseAll] at hargs
        | nil =>
          simp only [eraseAll, List.cons.injEq, and_true] at hargs
          obtain ⟨argSpan, harg⟩ := Expr.eq_name_of_erase hargs
          exact ⟨arg, argSpan, rfl, harg⟩
    have hnone : keywords = [] := by
      cases keywords with
      | nil => rfl
      | cons k ks => simp [eraseKeywords_cons] at hkeywords
    exact ⟨argSpan, s, funcSpan, place, by rw [harg, hnone]⟩

theorem Calls.erase (h : sugar.Calls p var varSpan span) : sugar.Calls p.erase var .none .none := by
  obtain ⟨nameSpan, callSpan, rfl⟩ := h
  exact ⟨.none, .none, rfl⟩

theorem erase_meaning (sugar : Sugar) (var : String) (varSpan span : Span) :
    (sugar.meaning var varSpan span).erase = sugar.meaning var .none .none := by
  cases sugar <;> rfl

/-- To rewrite what is left of a program without its ranges gives what is left of it rewritten. -/
theorem expandAll_erase (sugars : List Sugar) (p : Program) :
    expandAll sugars p.erase = (expandAll sugars p).erase := by
  obtain ⟨sugar, var, varSpan, span, h⟩ | hnone := calls_or_not p
  · rw [expandAll_of_calls sugars h, expandAll_of_calls sugars h.erase]
    split
    · rw [Program.erase, List.map_singleton, erase_meaning]
    · rfl
  · rw [expandAll_of_not_calls fun sugar _ => hnone sugar]
    refine expandAll_of_not_calls fun sugar _ var _ _ hcalls => ?_
    obtain ⟨varSpan, span, h⟩ := hcalls.of_erase
    exact hnone sugar var varSpan span h

end Sugar

/-! ### Turns -/

namespace Executor

variable {x : Executor} {p q : Program}

theorem executeProgram_erase (x : Executor) (turn : Nat) (p : Program) (followed : Bool) (s : State) :
    x.executeProgram turn p.erase followed s = x.executeProgram turn p followed s := by
  simp only [executeProgram, classify, Exec.classify_erase]

/-- Programs that differ in ranges at most are executed alike. -/
theorem executeProgram_congr (h : p.erase = q.erase) (turn : Nat) (followed : Bool) (s : State) :
    x.executeProgram turn p followed s = x.executeProgram turn q followed s := by
  rw [← executeProgram_erase, h, executeProgram_erase]

/-- Programs that differ in ranges at most are rewritten alike. -/
theorem rewrite_congr {sugars : List Sugar} (hrewriter : x.rewriter = .ofSugars sugars)
    (h : p.erase = q.erase) : (x.rewriter.apply p).erase = (x.rewriter.apply q).erase := by
  simp only [hrewriter, Rewriter.apply_ofSugars, ← Sugar.expandAll_erase, h]

end Executor

end TaskDialogue
