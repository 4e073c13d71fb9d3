import Mathlib.Data.List.Forall2
import TaskDialogue.Syntax.Draft

/-!
# Trees without their ranges

One statement may stand at different places, with other blanks between its words. What it says is
its tree without the ranges. A draft is built from drafts in the same way wherever these stand: parts
that are alike make wholes that are alike, and a whole is wrong when the like of it is wrong.
-/
namespace TaskDialogue

mutual

/-- The expression with no range at any of its nodes. -/
def Expr.erase : Expr → Expr
  | .none _ => .none .none
  | .bool b _ => .bool b .none
  | .int n _ => .int n .none
  | .float x _ => .float x .none
  | .str text _ => .str text .none
  | .list es _ => .list (eraseAll es) .none
  | .name id _ => .name id .none
  | .field base attr _ => .field base.erase attr .none
  | .subscript base index _ => .subscript base.erase index.erase .none
  | .call func args keywords _ => .call func.erase (eraseAll args) (eraseKeywords keywords) .none

def eraseAll : List Expr → List Expr
  | [] => []
  | e :: es => e.erase :: eraseAll es

def eraseKeywords : List Keyword → List Keyword
  | [] => []
  | ⟨name, value, _⟩ :: ks => ⟨name, value.erase, .none⟩ :: eraseKeywords ks

end

/-- The statement with no range at any of its nodes. -/
def Stmt.erase : Stmt → Stmt
  | .expr value _ => .expr value.erase .none
  | .assign target value _ => .assign target.erase value.erase .none
  | .tupleAssign targets values _ => .tupleAssign (eraseAll targets) (eraseAll values) .none
  | .append target value _ => .append target.erase value.erase .none

/-- What a program says, wherever its parts stand. -/
def Program.erase (p : Program) : Program := ⟨p.body.map Stmt.erase⟩

/-- Two expressions that differ in ranges at most. -/
def Expr.Like (e f : Expr) : Prop := e.erase = f.erase

structure Keyword.Like (k l : Keyword) : Prop where
  arg : k.arg = l.arg
  value : k.value.Like l.value

def Stmt.Like (s t : Stmt) : Prop := s.erase = t.erase

theorem eraseKeywords_cons (k : Keyword) (ks : List Keyword) :
    eraseKeywords (k :: ks) = ⟨k.arg, k.value.erase, .none⟩ :: eraseKeywords ks := by
  cases k
  rfl

theorem eraseAll_eq_iff {es fs : List Expr} :
    eraseAll es = eraseAll fs ↔ List.Forall₂ Expr.Like es fs := by
  induction es generalizing fs with
  | nil => cases fs <;> simp [eraseAll]
  | cons e es ih => cases fs <;> simp [eraseAll, ih, Expr.Like]

theorem Keyword.like_iff {k l : Keyword} : k.Like l ↔ k.arg = l.arg ∧ k.value.Like l.value :=
  ⟨fun h => ⟨h.arg, h.value⟩, fun h => ⟨h.1, h.2⟩⟩

theorem eraseKeywords_eq_iff {ks ls : List Keyword} :
    eraseKeywords ks = eraseKeywords ls ↔ List.Forall₂ Keyword.Like ks ls := by
  induction ks generalizing ls with
  | nil => cases ls <;> simp [eraseKeywords_cons, eraseKeywords]
  | cons k ks ih =>
    cases ls <;> simp [eraseKeywords_cons, eraseKeywords, ih, Keyword.like_iff, Expr.Like]

namespace Expr.Like

variable {e f : Expr} {es fs : List Expr} {ks ls : List Keyword} {s t : Span}

theorem refl (e : Expr) : e.Like e := rfl

theorem list (h : List.Forall₂ Expr.Like es fs) : (Expr.list es s).Like (.list fs t) := by
  simp [Like, erase, eraseAll_eq_iff.mpr h]

theorem field (h : e.Like f) (attr : String) : (Expr.field e attr s).Like (.field f attr t) := by
  simp only [Like, erase] at h ⊢
  rw [h]

theorem subscript {i j : Expr} (h : e.Like f) (hindex : i.Like j) :
    (Expr.subscript e i s).Like (.subscript f j t) := by
  simp only [Like, erase] at h hindex ⊢
  rw [h, hindex]

theorem call (h : e.Like f) (hargs : List.Forall₂ Expr.Like es fs)
    (hkeywords : List.Forall₂ Keyword.Like ks ls) :
    (Expr.call e es ks s).Like (.call f fs ls t) := by
  simp only [Like, erase] at h ⊢
  rw [h, eraseAll_eq_iff.mpr hargs, eraseKeywords_eq_iff.mpr hkeywords]

/-- What is like a field is one itself. -/
theorem of_field {attr : String} (h : (Expr.field e attr s).Like f) :
    ∃ g t, f = .field g attr t ∧ e.Like g := by
  cases f <;> simp [Like, erase] at h
  exact ⟨_, _, by rw [h.2], h.1⟩

end Expr.Like

namespace Syntax

/-! ### Drafts -/

/-- Both drafts are wrong, or both are right and related. -/
inductive Draft.Rel {α β : Type} (R : α → β → Prop) : Draft α → Draft β → Prop
  | ok {a : α} {b : β} (h : R a b) : Rel R (.ok a) (.ok b)
  | error {e f : SyntaxError} : Rel R (.error e) (.error f)

namespace Draft.Rel

variable {α β γ δ : Type} {R : α → β → Prop} {S : γ → δ → Prop}

theorem bind {d : Draft α} {d' : Draft β} {f : α → Draft γ} {g : β → Draft δ} (h : d.Rel R d')
    (hfg : ∀ a b, R a b → Draft.Rel S (f a) (g b)) : Draft.Rel S (d >>= f) (d' >>= g) := by
  cases h with
  | ok h => exact hfg _ _ h
  | error => exact .error

/-- What is related to something right is right. -/
theorem of_ok {a : α} {d : Draft β} (h : Draft.Rel R (.ok a) d) : ∃ b, d = .ok b ∧ R a b := by
  cases h with
  | ok h => exact ⟨_, rfl, h⟩

end Draft.Rel

theorem like_collect {α β : Type} {R : α → β → Prop} {ds : List (Draft α)} {es : List (Draft β)}
    (h : List.Forall₂ (Draft.Rel R) ds es) :
    Draft.Rel (List.Forall₂ R) (collect ds) (collect es) := by
  induction h with
  | nil => exact .ok .nil
  | cons hd _ ih =>
    exact hd.bind fun a b hab => ih.bind fun as bs has => .ok (.cons hab has)

/-- Drafts that are all right, and what they are collected to. -/
theorem like_collect_ok {α β : Type} {R : α → β → Prop} {as : List α} {ds : List (Draft β)}
    (h : List.Forall₂ (fun a => Draft.Rel R (.ok a)) as ds) :
    Draft.Rel (List.Forall₂ R) (.ok as) (collect ds) := by
  induction h with
  | nil => exact .ok .nil
  | cons ha _ ih =>
    obtain ⟨b, rfl, hb⟩ := ha.of_ok
    obtain ⟨bs, hbs, hall⟩ := ih.of_ok
    rw [collect, hbs]
    exact .ok (.cons hb hall)

/-- The same argument. -/
inductive Argument.Like : Argument → Argument → Prop
  | positional {v w : Draft Expr} {s t : Span} (h : v.Rel Expr.Like w) :
    Like (.positional v s) (.positional w t)
  | keyword {name : String} {v w : Draft Expr} {s t : Span} (h : v.Rel Expr.Like w) :
    Like (.keyword name v s) (.keyword name w t)

/-- The same call, attribute or index. -/
inductive Suffix.Like : Suffix → Suffix → Prop
  | call {as bs : List Argument} (h : List.Forall₂ Argument.Like as bs) : Like (.call as) (.call bs)
  | attr (name : String) : Like (.attr name) (.attr name)
  | index {v w : Draft Expr} (h : v.Rel Expr.Like w) : Like (.index v) (.index w)

theorem any_arg_like {ks ls : List Keyword} (h : List.Forall₂ Keyword.Like ks ls) (name : String) :
    ks.any (·.arg = name) = ls.any (·.arg = name) := by
  induction h with
  | nil => rfl
  | cons hk _ ih => simp only [List.any_cons, ih, hk.arg]

theorem like_arguments {as bs : List Argument} {args args' : List Expr} {ks ls : List Keyword}
    (h : List.Forall₂ Argument.Like as bs) (hargs : List.Forall₂ Expr.Like args args')
    (hkeywords : List.Forall₂ Keyword.Like ks ls) :
    Draft.Rel (fun r r' => List.Forall₂ Expr.Like r.1 r'.1 ∧ List.Forall₂ Keyword.Like r.2 r'.2)
      (arguments as args ks) (arguments bs args' ls) := by
  induction h generalizing args args' ks ls with
  | nil => exact .ok ⟨hargs, hkeywords⟩
  | cons ha _ ih =>
    cases ha with
    | positional hv =>
      have hempty : ks.isEmpty = ls.isEmpty := by cases hkeywords <;> rfl
      simp only [arguments, hempty]
      split
      · exact hv.bind fun v w hvw => ih (List.rel_append hargs (.cons hvw .nil)) hkeywords
      · exact .error
    | keyword hv =>
      simp only [arguments, any_arg_like hkeywords]
      split
      · exact .error
      · exact hv.bind fun v w hvw =>
          ih hargs (List.rel_append hkeywords (.cons ⟨rfl, hvw⟩ .nil))

theorem like_extend {base base' : Expr} {x y : Suffix} (s t : Span) (hbase : base.Like base')
    (h : x.Like y) : Draft.Rel Expr.Like (extend base x s) (extend base' y t) := by
  cases h with
  | call h =>
    exact (like_arguments h .nil .nil).bind fun r r' hr => .ok (hbase.call hr.1 hr.2)
  | attr name => exact .ok (hbase.field name)
  | index h => exact h.bind fun i j hij => .ok (hbase.subscript hij)

theorem like_chain {base base' : Expr} {xs ys : List (Suffix × Span)} (hbase : base.Like base')
    (h : List.Forall₂ (fun x y => x.1.Like y.1) xs ys) :
    Draft.Rel Expr.Like (chain base xs) (chain base' ys) := by
  induction h generalizing base base' with
  | nil => exact .ok hbase
  | cons hx _ ih => exact (like_extend _ _ hbase hx).bind fun e f hef => ih hef

theorem like_number (text : List Char) (s t : Span) :
    Draft.Rel Expr.Like (number text s) (number text t) := by
  unfold number
  split
  · exact .ok rfl
  · dsimp only
    split
    · exact .error
    · split
      · exact .error
      · exact .ok rfl

/-! ### Statements -/

theorem like_checkTarget {e f : Expr} (h : e.Like f) :
    Draft.Rel (fun _ _ => True) (checkTarget e) (checkTarget f) := by
  cases e with
  | field base attr s =>
    obtain ⟨g, t, rfl, -⟩ := h.of_field
    exact .ok trivial
  | _ => cases f <;> first | exact .error | simp [Expr.Like, Expr.erase] at h

theorem like_checkTargets {es fs : List Expr} (h : List.Forall₂ Expr.Like es fs) :
    Draft.Rel (fun _ _ => True) (checkTargets es) (checkTargets fs) := by
  induction h with
  | nil => exact .ok trivial
  | cons he _ ih => exact (like_checkTarget he).bind fun _ _ _ => ih

theorem like_assignStmt {target target' value value' : Expr} (s t : Span)
    (htarget : target.Like target') (hvalue : value.Like value') :
    Draft.Rel Stmt.Like (assignStmt target value s) (assignStmt target' value' t) := by
  refine (like_checkTarget htarget).bind fun _ _ _ => .ok ?_
  simp only [Stmt.Like, Stmt.erase, Expr.Like] at *
  rw [htarget, hvalue]

theorem like_tupleStmt {targets targets' values values' : List Expr} (s t : Span)
    (htargets : List.Forall₂ Expr.Like targets targets')
    (hvalues : List.Forall₂ Expr.Like values values') :
    Draft.Rel Stmt.Like (tupleStmt targets values s) (tupleStmt targets' values' t) := by
  refine (like_checkTargets htargets).bind fun _ _ _ => ?_
  rw [htargets.length_eq, hvalues.length_eq]
  split
  · refine .ok ?_
    simp only [Stmt.Like, Stmt.erase, eraseAll_eq_iff.mpr htargets, eraseAll_eq_iff.mpr hvalues]
  · exact .error

/-- Two drafts are alike when the same is left of both without the ranges. -/
theorem Draft.rel_of_toOption {d d' : Draft Stmt}
    (h : d.toOption.map Stmt.erase = d'.toOption.map Stmt.erase) : d.Rel Stmt.Like d' := by
  cases d <;> cases d' <;> simp [Except.toOption] at h
  · exact .error
  · exact .ok h

theorem erase_appendStmt (target : Expr) (args : List Expr) (keywords : List Keyword) (s : Span) :
    (appendStmt target args keywords s).toOption.map Stmt.erase =
      (appendStmt target.erase (eraseAll args) (eraseKeywords keywords) .none).toOption := by
  cases target with
  | field base attr _ =>
    cases base with
    | name id _ =>
      rcases args with _ | ⟨value, _ | ⟨_, _⟩⟩ <;> cases keywords <;>
        simp only [Expr.erase, eraseAll, eraseKeywords_cons] <;> rfl
    | _ => rfl
  | _ => rfl

/-- An expression is the same statement wherever it stands. -/
theorem erase_exprStmt (value : Expr) (s : Span) :
    (exprStmt value s).toOption.map Stmt.erase = (exprStmt value.erase .none).toOption := by
  cases value with
  | call func args keywords _ =>
    cases func with
    | field target attr _ =>
      simp only [exprStmt, Expr.erase]
      split
      · exact erase_appendStmt target args keywords s
      · rfl
    | _ => rfl
  | _ => rfl

theorem like_exprStmt {value value' : Expr} (s t : Span) (h : value.Like value') :
    Draft.Rel Stmt.Like (exprStmt value s) (exprStmt value' t) := by
  refine Draft.rel_of_toOption ?_
  rw [erase_exprStmt, erase_exprStmt, h]

end Syntax

end TaskDialogue
