import TaskDialogue.Proofs.Syntax.Words

/-!
# Blanks at the end of a text

A text that is read with blanks after it is read without them, as the same program up to its ranges.
Every pattern of the grammar is put together from words and characters that are no blanks, so it
reads both texts alike. Only at the end of the whole text do the two differ: blanks that the grammar
does not skip may stand there in the longer one.
-/
namespace TaskDialogue

open Syntax Pattern

namespace Syntax

variable {k m n : Nat}

/-- Drafts of like expressions. -/
abbrev LikeExpr (d d' : Draft Expr) : Prop := d.Rel Expr.Like d'

/-- Drafts of like statements. -/
abbrev LikeStmt (d d' : Draft Stmt) : Prop := d.Rel Stmt.Like d'

/-! ### Expressions -/

theorem alike_identifier : Alike 0 m n (fun x y => x.1 = y.1) identifier identifier :=
  (Alike.token .identifier scansAlike_scanIdentifier).map fun x y h => by rw [h]

theorem alike_literal : Alike 0 m n LikeExpr literal literal := by
  have hnone : Alike 0 m n LikeExpr noneLit noneLit :=
    (Alike.token .noneLit (scansAlike_scanWord "None")).map fun _ _ _ => .ok rfl
  have hboolean : Alike 0 m n LikeExpr booleanLit booleanLit :=
    (Alike.token .boolean scansAlike_scanBoolean).map fun x y h => .ok (by rw [h]; rfl)
  have hnumber : Alike 0 m n LikeExpr numberLit numberLit :=
    (Alike.token .number scansAlike_scanNumber).map fun x y h => by
      rw [h]
      exact like_number y.1 x.2 y.2
  have hstring : Alike 0 m n LikeExpr stringLit stringLit :=
    (Alike.token .string scansAlike_scanString).map fun x y h => .ok (by rw [h]; rfl)
  exact hnone.orElse (hboolean.orElse (hnumber.orElse hstring))

/-- The items of a list that may be missing. -/
theorem forall₂_getD {α β : Type} {R : α → β → Prop} {x : Option (List α)} {y : Option (List β)}
    (h : Option.Rel (List.Forall₂ R) x y) : List.Forall₂ R (x.getD []) (y.getD []) := by
  cases h with
  | none => exact .nil
  | some h => exact h

theorem alike_close {c : Char} (hc : Text.isBlank c = false) :
    Alike 0 m n (fun _ _ => True) (symbol c) (symbol c) :=
  (Alike.symbol fun _ hd => hd.ne hc).mono (Nat.zero_le 1) le_rfl le_rfl

section

variable {e e' : Pattern (Draft Expr × Span)} (he : Alike 0 m n (fun x y => LikeExpr x.1 y.1) e e')
include he

theorem alike_listLit : Alike 0 (m + 1) (n + 1) LikeExpr (listLit e) (listLit e') := by
  have hitems := Alike.after (c := '[') (m := m + 1) (n := n + 1) (by decide)
    (he.commaList.optional.seqLeft (alike_close (c := ']') (by decide)))
  refine ((hitems.rule .listLit).map fun x y h => ?_).mono (Nat.zero_le 1) le_rfl le_rfl
  have hdrafts : List.Forall₂ LikeExpr ((x.1.getD []).map (·.1)) ((y.1.getD []).map (·.1)) :=
    List.forall₂_map_left_iff.mpr (List.forall₂_map_right_iff.mpr (forall₂_getD h))
  exact (like_collect hdrafts).bind fun es fs hes => .ok (.list hes)

theorem alike_argument : Alike 0 m n Argument.Like (argument e) (argument e') := by
  have hvalue := Alike.after (c := '=') (m := m) (n := n) (by decide)
    (he.mono le_rfl (Nat.sub_le m 1) (Nat.sub_le n 1))
  have hkeyword : Alike 0 m n Argument.Like (keywordArg e) (keywordArg e') :=
    (((alike_identifier.seq hvalue).rule .keywordArg).map fun x y h => by
      rw [h.1]
      exact .keyword h.2).mono (Nat.zero_le _) le_rfl le_rfl
  exact hkeyword.orElse (he.map fun _ _ h => .positional h)

theorem alike_suffix :
    Alike 1 (m + 1) (n + 1) (fun x y => x.1.Like y.1) (suffix e) (suffix e') := by
  have hcall : Alike 1 (m + 1) (n + 1) (fun x y => x.1.Like y.1) (callSuffix e) (callSuffix e') :=
    ((Alike.after (c := '(') (m := m + 1) (n := n + 1) (by decide)
      ((alike_argument he).commaList.optional.seqLeft (alike_close (c := ')') (by decide)))).rule
        .callSuffix).map fun x y h => .call (forall₂_getD h)
  have hattr : Alike 1 (m + 1) (n + 1) (fun x y => x.1.Like y.1) attrAccess attrAccess :=
    ((Alike.after (c := '.') (by decide) alike_identifier).rule .attrAccess).map fun x y h => by
      rw [h]
      exact .attr _
  have hindex : Alike 1 (m + 1) (n + 1) (fun x y => x.1.Like y.1) (indexAccess e) (indexAccess e') :=
    ((Alike.after (c := '[') (m := m + 1) (n := n + 1) (by decide)
      (he.seqLeft (alike_close (c := ']') (by decide)))).rule .indexAccess).map
        fun x y h => .index h
  exact hcall.orElse (hattr.orElse hindex)

theorem alike_postfixExpr :
    Alike 0 (m + 1) (n + 1) LikeExpr (postfixExpr e) (postfixExpr e') := by
  have hchain := alike_identifier.seq (alike_suffix he).many
  refine (hchain.rule .postfixExpr).map fun x y h => ?_
  rw [h.1]
  exact like_chain rfl h.2

theorem alike_expressionWith :
    Alike 0 (m + 1) (n + 1) (fun x y => LikeExpr x.1 y.1) (expressionWith e) (expressionWith e') :=
  (alike_literal.orElse ((alike_listLit he).orElse (alike_postfixExpr he))).rule .expression

end

/-- Texts that are shorter than the depths are read alike at any depths. -/
theorem alike_expression (d d' : Nat) :
    Alike 0 d d' (fun x y => LikeExpr x.1 y.1) (expression d) (expression d') := by
  induction d generalizing d' with
  | zero => exact .fail 0 d'
  | succ d ih =>
    cases d' with
    | zero => exact fun _ _ _ _ _ _ hds => absurd hds (Nat.not_lt_zero _)
    | succ d' => exact alike_expressionWith (ih d')

/-! ### Statements -/

section

variable {e e' : Pattern (Draft Expr × Span)} (he : Alike 0 m n (fun x y => LikeExpr x.1 y.1) e e')
include he

theorem alike_target : Alike 0 m n LikeExpr (postfixExpr e) (postfixExpr e') :=
  (alike_postfixExpr he).mono le_rfl (Nat.le_succ m) (Nat.le_succ n)

theorem alike_valueList :
    Alike 0 m n (List.Forall₂ LikeExpr) (valueList e) (valueList e') := by
  have hvalues : Alike 0 m n (List.Forall₂ LikeExpr)
      ((tupleOf e).map fun vs => vs.map (·.1)) ((tupleOf e').map fun vs => vs.map (·.1)) :=
    he.tupleOf.map fun xs ys h =>
      List.forall₂_map_left_iff.mpr (List.forall₂_map_right_iff.mpr h)
  have hclosed := Alike.after (c := '(') (by decide)
    ((hvalues.mono le_rfl (Nat.sub_le m 1) (Nat.sub_le n 1)).seqLeft
      (alike_close (c := ')') (by decide)))
  exact (((hclosed.mono (Nat.zero_le 1) le_rfl le_rfl).orElse hvalues).rule .valueList).map
    fun _ _ h => h

theorem alike_tupleAssign : Alike 0 m n LikeStmt (tupleAssign e) (tupleAssign e') := by
  have htargets : Alike 0 m n (List.Forall₂ LikeExpr) (targetList e) (targetList e') :=
    ((alike_target he).tupleOf.rule .targetList).map fun _ _ h => h
  have hvalues := Alike.after (c := '=') (m := m) (n := n) (by decide)
    ((alike_valueList he).mono le_rfl (Nat.sub_le m 1) (Nat.sub_le n 1))
  refine (((htargets.seq hvalues).rule .tupleAssign).map fun x y h => ?_).mono (Nat.zero_le _)
    le_rfl le_rfl
  exact (like_collect h.1).bind fun ts ts' hts => (like_collect h.2).bind fun vs vs' hvs =>
    like_tupleStmt x.2 y.2 hts hvs

theorem alike_assign : Alike 0 m n LikeStmt (assign e) (assign e') := by
  have hvalue := Alike.after (c := '=') (m := m) (n := n) (by decide)
    (he.mono le_rfl (Nat.sub_le m 1) (Nat.sub_le n 1))
  refine ((((alike_target he).seq hvalue).rule .assign).map fun x y h => ?_).mono (Nat.zero_le _)
    le_rfl le_rfl
  exact h.1.bind fun t t' ht => h.2.bind fun v v' hv => like_assignStmt x.2 y.2 ht hv

theorem alike_statement : Alike 0 m n LikeStmt (statement e) (statement e') := by
  have hexpr : Alike 0 m n LikeStmt (exprStatement e) (exprStatement e') :=
    (he.rule .exprStmt).map fun x y h => h.bind fun v v' hv => like_exprStmt x.2 y.2 hv
  exact (((alike_tupleAssign he).orElse ((alike_assign he).orElse hexpr)).rule .statement).map
    fun _ _ h => h

omit he in
/-- A line feed separates statements, so it is none of the blanks. -/
theorem alike_separator : Alike 1 m n (fun _ _ => True) separator separator :=
  (Alike.symbol fun _ hd => hd.ne (by decide)).orElse (Alike.symbol fun _ hd => hd.2)

theorem alike_statements :
    Alike 0 m n (List.Forall₂ LikeStmt) (statements e) (statements e') := by
  have hstatement := alike_statement he
  have hnext : Alike 1 m n LikeStmt ((separator.seq separator.many).seqRight (statement e))
      ((separator.seq separator.many).seqRight (statement e')) :=
    (alike_separator.seq alike_separator.many).seqRight
      (hstatement.mono le_rfl (Nat.sub_le m _) (Nat.sub_le n _))
  have hrest := hnext.many.seqLeft (alike_separator (m := m - 0) (n := n - 0)).many
  dsimp only [statements]
  exact (hstatement.seq hrest).map fun x y h => .cons h.1 h.2

end

/-! ### Whole texts -/

/-- What is read of a text with blanks after it is read of the text. -/
def Leads {α β : Type} (m n : Nat) (R : α → β → Prop) (p : Pattern α) (q : Pattern β) : Prop :=
  ∀ o o' cs ds, Padded cs ds → cs.length < m → ds.length < n → ∀ b d', q.read ⟨o', ds⟩ = some (b, d') →
    ∃ a d, p.read ⟨o, cs⟩ = some (a, d) ∧ R a b

namespace Leads

variable {α β γ δ : Type} {R : α → β → Prop} {S : γ → δ → Prop} {p : Pattern α} {q : Pattern β}
  {r : Pattern γ} {s : Pattern δ}

theorem map {f : α → γ} {g : β → δ} (h : Leads m n R p q) (hfg : ∀ a b, R a b → S (f a) (g b)) :
    Leads m n S (p.map f) (q.map g) := by
  intro o o' cs ds hpad hcs hds b d' hread
  obtain ⟨⟨b, e'⟩, hb, heq⟩ := Option.map_eq_some_iff.mp hread
  obtain ⟨rfl, rfl⟩ := Prod.mk.inj heq
  obtain ⟨a, d, ha, hab⟩ := h o o' cs ds hpad hcs hds b e' hb
  exact ⟨f a, d, by simp [Pattern.map, ha], hfg a b hab⟩

theorem rule (name : Rule) (h : Leads m n R p q) :
    Leads m n (fun x y => R x.1 y.1) (Pattern.rule name p) (Pattern.rule name q) := by
  intro o o' cs ds hpad hcs hds b d' hread
  obtain ⟨⟨b, e'⟩, hb, heq⟩ := Option.map_eq_some_iff.mp hread
  obtain ⟨rfl, rfl⟩ := Prod.mk.inj heq
  obtain ⟨a, d, ha, hab⟩ := h o o' cs ds hpad hcs hds b e' hb
  exact ⟨(a, _), d, by simp only [Pattern.rule, ha, Option.map_some]; rfl, hab⟩

/-- What comes first is read alike, and the rest of the text where that of the longer one is. -/
theorem seq (hp : Alike k m n R p q) (hr : ∀ o o' cs ds, Padded cs ds → cs.length < m →
      ds.length < n → ∀ b d', s.read (Cursor.skip ⟨o', ds⟩) = some (b, d') →
      ∃ a d, r.read (Cursor.skip ⟨o, cs⟩) = some (a, d) ∧ S a b) :
    Leads m n (fun x y => R x.1 y.1 ∧ S x.2 y.2) (p.seq r) (q.seq s) := by
  intro o o' cs ds hpad hcs hds b d' hread
  have hfirst := hp o o' cs ds hpad hcs hds
  simp only [Pattern.seq] at hread ⊢
  generalize p.read ⟨o, cs⟩ = x at hfirst ⊢
  generalize q.read ⟨o', ds⟩ = y at hfirst hread
  cases hfirst with
  | none => simp at hread
  | @some a₁ b₁ o₁ o₁' rest rest' hvalue hrest hleft hright =>
    obtain ⟨⟨b₂, e'⟩, hb, heq⟩ := Option.map_eq_some_iff.mp hread
    obtain ⟨rfl, rfl⟩ := Prod.mk.inj heq
    obtain ⟨a₂, d, ha, hab⟩ := hr o₁ o₁' rest rest' hrest (by omega) (by omega) b₂ e' hb
    exact ⟨(a₁, a₂), d, by simp only [ha, Option.map_some], hvalue, hab⟩

theorem seqRight (hp : Alike k m n R p q) (hr : Leads m n S r s) :
    Leads m n S (p.seqRight r) (q.seqRight s) := by
  refine (seq hp fun o o' cs ds hpad hcs hds b d' hread => ?_).map fun _ _ h => h.2
  have hleft := (List.dropWhile_sublist (l := cs) Cursor.isSpace).length_le
  have hright := (List.dropWhile_sublist (l := ds) Cursor.isSpace).length_le
  exact hr _ _ _ _ (hpad.dropWhile Cursor.isSpace) (by omega) (by omega) b d' hread

/-- The text ends where the longer one does but for blanks. -/
theorem endOfText (h : Alike k m n R p q) :
    Leads m n R (p.seqLeft Pattern.endOfText) (q.seqLeft Pattern.endOfText) := by
  refine (seq (S := fun _ _ => True) h fun o o' cs ds hpad _ _ b d' hread => ?_).map fun _ _ h => h.1
  have hskip := hpad.dropWhile Cursor.isSpace
  have hend : ds.dropWhile Cursor.isSpace = [] := by
    by_contra hne
    obtain ⟨c, rest, hcons⟩ := List.exists_cons_of_ne_nil hne
    simp [Pattern.endOfText, Cursor.skip, Cursor.after, hcons] at hread
  have hshort : cs.dropWhile Cursor.isSpace = [] :=
    List.eq_nil_of_length_eq_zero (by have := hskip.length_le; simp [hend] at this; simpa using this)
  exact ⟨(), _, by simp only [Pattern.endOfText, Cursor.skip, Cursor.after, hshort]; rfl, trivial⟩

end Leads

theorem leads_turn {d d' : Nat} :
    Leads d d' (List.Forall₂ LikeStmt) (turn (expression d)) (turn (expression d')) := by
  have hstatements := alike_statements (alike_expression d d')
  have hbody := Leads.endOfText hstatements.optional
  exact ((Leads.seqRight Alike.nothing (.seqRight alike_separator.many hbody)).rule .turn).map
    fun x y h => forall₂_getD h

end Syntax

/-- A program is read without the blanks after its text. -/
theorem Program.parse_of_padded {cs ds : List Char} (h : Padded cs ds) {p : Program}
    (hparse : Program.parse (String.ofList ds) = .ok p) :
    ∃ p', Program.parse (String.ofList cs) = .ok p' ∧ p'.erase = p.erase := by
  delta Program.parse at hparse ⊢
  simp only [String.toList_ofList] at hparse ⊢
  split at hparse
  · next drafts' after' hread =>
    obtain ⟨drafts, after, hread', hlike⟩ := leads_turn (d := cs.length + 1) 0 0 cs ds h
      (Nat.lt_succ_self _) (Nat.lt_succ_self _) drafts' after' hread
    simp only [hread']
    have hbodies := like_collect hlike
    generalize collect drafts = body at hbodies ⊢
    generalize collect drafts' = body' at hbodies hparse
    cases hbodies with
    | error => simp [Except.map] at hparse
    | @ok stmts stmts' hstmts =>
      obtain rfl : ⟨stmts'⟩ = p := Except.ok.inj hparse
      refine ⟨⟨stmts⟩, rfl, congrArg Program.mk ?_⟩
      rw [← List.forall₂_eq_eq_eq]
      exact List.forall₂_map_left_iff.mpr (List.forall₂_map_right_iff.mpr hstmts)
  · simp at hparse

end TaskDialogue
