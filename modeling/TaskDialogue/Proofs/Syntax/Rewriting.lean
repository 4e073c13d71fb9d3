import TaskDialogue.Syntax.Rewriter

/-!
# What rewriting does

A sugar expands the program that is a call of it and hands back every other one. What it gives is
no call, so that nothing is expanded twice. Of a list of sugars only that one counts which the
program calls: rewriting is one expansion or none, in whatever order the rules stand and however
often.
-/
namespace TaskDialogue

namespace Sugar

/-- The program is one statement, the call of a sugar with a name as its only argument. -/
def Calls (sugar : Sugar) (p : Program) (var : String) (varSpan span : Span) : Prop :=
  ∃ nameSpan callSpan,
    p = ⟨[.expr (.call (.name sugar.id nameSpan) [.name var varSpan] [] callSpan) span]⟩

variable {sugar other : Sugar} {p : Program} {var : String} {varSpan span : Span}

theorem id_injective (h : sugar.id = other.id) : sugar = other := by
  cases sugar <;> cases other <;> first | rfl | simp [id] at h

theorem match?_eq_some_iff : sugar.match? p = some (var, varSpan, span) ↔ sugar.Calls p var varSpan span := by
  constructor
  · intro h
    obtain ⟨body⟩ := p
    unfold match? at h
    split at h
    · next f nameSpan v vSpan callSpan s hbody =>
      split at h
      · next hid =>
        simp only [Option.some.injEq, Prod.mk.injEq] at h
        obtain ⟨rfl, rfl, rfl⟩ := h
        exact ⟨nameSpan, callSpan, by rw [← hid, ← hbody]⟩
      · simp at h
    · simp at h
  · rintro ⟨nameSpan, callSpan, rfl⟩
    simp [match?]

/-- A program is a call of one sugar at most. -/
theorem Calls.unique {v : String} {vSpan s : Span} (h : sugar.Calls p var varSpan span)
    (hother : other.Calls p v vSpan s) : other = sugar := by
  obtain ⟨nameSpan, callSpan, rfl⟩ := h
  obtain ⟨nameSpan', callSpan', heq⟩ := hother
  simp only [Program.mk.injEq, List.cons.injEq, Stmt.expr.injEq, Expr.call.injEq, Expr.name.injEq] at heq
  exact id_injective heq.1.1.1.1.symm

theorem expand_of_calls (h : sugar.Calls p var varSpan span) :
    sugar.expand p = ⟨[sugar.meaning var varSpan span]⟩ := by
  rw [expand, match?_eq_some_iff.mpr h]

theorem expand_of_not_calls (h : ∀ var varSpan span, ¬sugar.Calls p var varSpan span) :
    sugar.expand p = p := by
  have hnone : sugar.match? p = none := by
    rw [Option.eq_none_iff_forall_ne_some]
    rintro ⟨var, varSpan, span⟩ hmatch
    exact h var varSpan span (match?_eq_some_iff.mp hmatch)
  rw [expand, hnone]

/-- What a sugar stands for is no call. -/
theorem not_calls_meaning (v : String) (vSpan s : Span) :
    ¬other.Calls ⟨[sugar.meaning v vSpan s]⟩ var varSpan span := by
  rintro ⟨nameSpan, callSpan, heq⟩
  cases sugar <;> simp [meaning] at heq

/-- A program that no sugar of the list is called by stays as it is. -/
theorem expandAll_of_not_calls {sugars : List Sugar}
    (h : ∀ sugar ∈ sugars, ∀ var varSpan span, ¬sugar.Calls p var varSpan span) :
    expandAll sugars p = p := by
  induction sugars with
  | nil => rfl
  | cons sugar rest ih =>
    obtain ⟨hsugar, hrest⟩ := List.forall_mem_cons.mp h
    rw [expandAll, List.foldl_cons, expand_of_not_calls hsugar]
    exact ih hrest

/-- A call is expanded once, if its sugar is in the list. -/
theorem expandAll_of_calls (sugars : List Sugar) (h : sugar.Calls p var varSpan span) :
    expandAll sugars p =
      if sugar ∈ sugars then ⟨[sugar.meaning var varSpan span]⟩ else p := by
  induction sugars with
  | nil => rfl
  | cons first rest ih =>
    rw [expandAll, List.foldl_cons, ← expandAll]
    by_cases hfirst : first = sugar
    · subst hfirst
      rw [expand_of_calls h, if_pos List.mem_cons_self]
      exact expandAll_of_not_calls fun _ _ _ _ _ => not_calls_meaning _ _ _
    · have hother : first.expand p = p :=
        expand_of_not_calls fun _ _ _ hcalls => hfirst (h.unique hcalls)
      rw [hother, ih]
      simp [Ne.symm hfirst]

/-- A program is a call of some sugar, or of none. -/
theorem calls_or_not (p : Program) :
    (∃ (sugar : Sugar) (var : String) (varSpan span : Span), sugar.Calls p var varSpan span) ∨
      ∀ (sugar : Sugar) var varSpan span, ¬sugar.Calls p var varSpan span := by
  by_cases h : ∃ (sugar : Sugar) (var : String) (varSpan span : Span), sugar.Calls p var varSpan span
  · exact .inl h
  · exact .inr fun sugar var varSpan span hcalls => h ⟨sugar, var, varSpan, span, hcalls⟩

theorem expandAll_expandAll (sugars : List Sugar) (p : Program) :
    expandAll sugars (expandAll sugars p) = expandAll sugars p := by
  obtain ⟨sugar, var, varSpan, span, h⟩ | hnone := calls_or_not p
  · rw [expandAll_of_calls sugars h]
    split
    · exact expandAll_of_not_calls fun _ _ _ _ _ => not_calls_meaning _ _ _
    · next hout => rw [expandAll_of_calls sugars h, if_neg hout]
  · have hsame : expandAll sugars p = p := expandAll_of_not_calls fun sugar _ => hnone sugar
    rw [hsame, hsame]

/-- Only which sugars are in the list counts. -/
theorem expandAll_congr {sugars others : List Sugar} (h : ∀ sugar, sugar ∈ others ↔ sugar ∈ sugars)
    (p : Program) : expandAll others p = expandAll sugars p := by
  obtain ⟨sugar, var, varSpan, span, hcalls⟩ | hnone := calls_or_not p
  · simp only [expandAll_of_calls _ hcalls, h sugar]
  · have hsame : ∀ l : List Sugar, expandAll l p = p := fun _ =>
      expandAll_of_not_calls fun sugar _ => hnone sugar
    rw [hsame, hsame]

end Sugar

/-- To rewrite a program twice by a list of sugars is to rewrite it once, and lists that hold the same
sugars rewrite it to the same program, ranges included. A program that is no call of a sugar stays as
it is; a call becomes the statement that it stands for exactly when its sugar is in the list. -/
theorem Rewriter.apply_sugars (sugars : List Sugar) (p : Program) :
    let r := ofSugars sugars
    r.apply (r.apply p) = r.apply p ∧
      (∀ others : List Sugar, (∀ sugar, sugar ∈ others ↔ sugar ∈ sugars) →
        (ofSugars others).apply p = r.apply p) ∧
      ((∀ (sugar : Sugar) var varSpan span, ¬sugar.Calls p var varSpan span) → r.apply p = p) ∧
      ∀ (sugar : Sugar) var varSpan span, sugar.Calls p var varSpan span →
        r.apply p = if sugar ∈ sugars then ⟨[sugar.meaning var varSpan span]⟩ else p := by
  simp only [apply_ofSugars]
  exact ⟨Sugar.expandAll_expandAll sugars p, fun others h => Sugar.expandAll_congr h p,
    fun h => Sugar.expandAll_of_not_calls fun sugar _ => h sugar,
    fun _ _ _ _ h => Sugar.expandAll_of_calls sugars h⟩

/-- `resume(x3)` under rules in another order, one of them twice. -/
theorem Rewriter.apply_sugars_resume :
    let p : Program := ⟨[.expr (.call (.name "resume" ⟨0, 6⟩) [.name "x3" ⟨7, 9⟩] [] ⟨0, 10⟩) ⟨0, 10⟩]⟩
    let others : List Sugar := [.resume, .confirm, .resume]
    (∀ sugar, sugar ∈ others ↔ sugar ∈ Sugar.defaults) ∧ Sugar.resume.Calls p "x3" ⟨7, 9⟩ ⟨0, 10⟩ ∧
      (ofSugars others).apply p = ⟨[.expr (.name "x3" ⟨7, 9⟩) ⟨0, 10⟩]⟩ := by
  intro p others
  have hsame : ∀ sugar, sugar ∈ others ↔ sugar ∈ Sugar.defaults := by
    intro sugar
    cases sugar <;> decide
  have hcalls : Sugar.resume.Calls p "x3" ⟨7, 9⟩ ⟨0, 10⟩ := ⟨⟨0, 6⟩, ⟨0, 10⟩, rfl⟩
  obtain ⟨-, hcongr, -, hexpand⟩ := apply_sugars Sugar.defaults p
  exact ⟨hsame, hcalls, (hcongr others hsame).trans (hexpand _ _ _ _ hcalls)⟩

end TaskDialogue
