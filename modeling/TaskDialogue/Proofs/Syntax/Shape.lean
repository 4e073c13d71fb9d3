import TaskDialogue.Syntax.Grammar
import TaskDialogue.Syntax.Rewriter
import TaskDialogue.Proofs.Syntax.Results

/-!
# The shape of what is read

Whatever text is read, its statements have the shapes that classification relies on: what is
assigned to is a field, a tuple has as many values as targets, a call that is a statement calls a
name, and no call has two arguments of one name. The grammar alone does not give this: a draft is
a tree only when its checks were passed, so what holds of drafts is carried through the patterns.
-/
namespace TaskDialogue

mutual

/-- In every call within, no name of an argument is given twice. -/
def Expr.NamesOnce : Expr → Prop
  | .none _ | .bool _ _ | .int _ _ | .float _ _ | .str _ _ | .name _ _ => True
  | .list es _ => NamesOnceAll es
  | .field base _ _ => base.NamesOnce
  | .subscript base index _ => base.NamesOnce ∧ index.NamesOnce
  | .call func args keywords _ =>
    func.NamesOnce ∧ NamesOnceAll args ∧ NamesOnceIn keywords ∧ (keywords.map (·.arg)).Nodup

def NamesOnceAll : List Expr → Prop
  | [] => True
  | e :: es => e.NamesOnce ∧ NamesOnceAll es

def NamesOnceIn : List Keyword → Prop
  | [] => True
  | ⟨_, value, _⟩ :: ks => value.NamesOnce ∧ NamesOnceIn ks

end

theorem namesOnceAll_iff {es : List Expr} : NamesOnceAll es ↔ ∀ e ∈ es, e.NamesOnce := by
  induction es with
  | nil => simp [NamesOnceAll]
  | cons e es ih => simp [NamesOnceAll, ih]

theorem namesOnceIn_iff {ks : List Keyword} : NamesOnceIn ks ↔ ∀ k ∈ ks, k.value.NamesOnce := by
  induction ks with
  | nil => simp [NamesOnceIn]
  | cons k ks ih =>
    obtain ⟨name, value, span⟩ := k
    simp [NamesOnceIn, ih]

/-- Whether an expression is a field of another one. -/
def Expr.IsField (e : Expr) : Prop := ∃ base attr span, e = .field base attr span

/-- Whether an expression is a field of a variable. -/
def Expr.IsVariableField (e : Expr) : Prop :=
  ∃ var varSpan attr span, e = .field (.name var varSpan) attr span

namespace Stmt

/-- What the parts of a statement are. -/
def Shaped : Stmt → Prop
  | expr (.call func _ _ _) _ => ∃ name span, func = .name name span
  | expr _ _ => True
  | assign target _ _ => target.IsField
  | tupleAssign targets values _ =>
    targets ≠ [] ∧ targets.length = values.length ∧ ∀ target ∈ targets, target.IsField
  | append target _ _ => target.IsVariableField

/-- A statement that classification can rely on. -/
structure WellFormed (stmt : Stmt) : Prop where
  shaped : stmt.Shaped
  names : ∀ e ∈ stmt.parts, e.NamesOnce

end Stmt

/-- A program of such statements. -/
def Program.WellFormed (p : Program) : Prop := ∀ stmt ∈ p.body, stmt.WellFormed

namespace Syntax

/-! ### Drafts -/

/-- A draft that is a tree only when something holds of it. -/
def Draft.Holds {α : Type} (P : α → Prop) (d : Draft α) : Prop := ∀ a, d = .ok a → P a

namespace Draft.Holds

variable {α β : Type} {P : α → Prop} {Q : β → Prop}

theorem ok {a : α} (h : P a) : Draft.Holds P (.ok a) := by
  rintro _ ⟨⟩
  exact h

theorem misused (cause : Misuse) (span : Span) : Draft.Holds P (misused cause span) := nofun

theorem bind {d : Draft α} {f : α → Draft β} (hd : d.Holds P) (hf : ∀ a, P a → (f a).Holds Q) :
    Draft.Holds Q (d >>= f) := by
  cases d with
  | error e => exact nofun
  | ok a => exact hf a (hd a rfl)

end Draft.Holds

theorem holds_collect {α : Type} {P : α → Prop} {ds : List (Draft α)} (h : ∀ d ∈ ds, d.Holds P) :
    (collect ds).Holds fun as => as.length = ds.length ∧ ∀ a ∈ as, P a := by
  induction ds with
  | nil => exact .ok ⟨rfl, nofun⟩
  | cons d ds ih =>
    obtain ⟨hd, hds⟩ := List.forall_mem_cons.mp h
    exact hd.bind fun a ha => (ih hds).bind fun as ⟨hlength, has⟩ =>
      .ok ⟨by simp [hlength], List.forall_mem_cons.mpr ⟨ha, has⟩⟩

def Argument.NamesOnce : Argument → Prop
  | .positional value _ | .keyword _ value _ => value.Holds Expr.NamesOnce

def Suffix.NamesOnce : Suffix → Prop
  | .call args => ∀ a ∈ args, a.NamesOnce
  | .attr _ => True
  | .index value => value.Holds Expr.NamesOnce

/-- The arguments of a call as they are put together. -/
structure Gathered (r : List Expr × List Keyword) : Prop where
  args : ∀ e ∈ r.1, e.NamesOnce
  keywords : ∀ k ∈ r.2, k.value.NamesOnce
  nodup : (r.2.map (·.arg)).Nodup

theorem holds_arguments {as : List Argument} {args : List Expr} {keywords : List Keyword}
    (has : ∀ a ∈ as, a.NamesOnce) (h : Gathered (args, keywords)) :
    (arguments as args keywords).Holds Gathered := by
  induction as generalizing args keywords with
  | nil => exact .ok h
  | cons a as ih =>
    obtain ⟨ha, hrest⟩ := List.forall_mem_cons.mp has
    cases a with
    | positional value span =>
      simp only [arguments]
      split
      · exact ha.bind fun v hv => ih hrest
          ⟨List.forall_mem_append.mpr ⟨h.args, by simpa using hv⟩, h.keywords, h.nodup⟩
      · exact .misused _ _
    | keyword name value span =>
      simp only [arguments]
      split
      · exact .misused _ _
      · next hnew =>
        refine ha.bind fun v hv => ih hrest
          ⟨h.args, List.forall_mem_append.mpr ⟨h.keywords, by simpa using hv⟩, ?_⟩
        have hname : name ∉ keywords.map (·.arg) := by simpa using hnew
        simpa [List.nodup_append] using ⟨h.nodup, fun k hk heq =>
          hname (heq ▸ List.mem_map_of_mem hk)⟩

theorem holds_extend {base : Expr} {suffix : Suffix} (span : Span) (hbase : base.NamesOnce)
    (hsuffix : suffix.NamesOnce) : (extend base suffix span).Holds Expr.NamesOnce := by
  cases suffix with
  | call args =>
    have hnone : Gathered ([], []) := ⟨by simp, by simp, List.nodup_nil⟩
    refine (holds_arguments hsuffix hnone).bind fun r hr => .ok ?_
    exact ⟨hbase, namesOnceAll_iff.mpr hr.args, namesOnceIn_iff.mpr hr.keywords, hr.nodup⟩
  | attr name => exact .ok hbase
  | index value => exact hsuffix.bind fun v hv => .ok ⟨hbase, hv⟩

theorem holds_chain {base : Expr} {suffixes : List (Suffix × Span)} (hbase : base.NamesOnce)
    (h : ∀ s ∈ suffixes, s.1.NamesOnce) : (chain base suffixes).Holds Expr.NamesOnce := by
  induction suffixes generalizing base with
  | nil => exact .ok hbase
  | cons s rest ih =>
    obtain ⟨hs, hrest⟩ := List.forall_mem_cons.mp h
    exact (holds_extend s.2 hbase hs).bind fun next hnext => ih hnext hrest

/-! ### Statements -/

theorem holds_checkTarget (target : Expr) :
    (checkTarget target).Holds fun _ => target.IsField := by
  cases target with
  | field base attr span => exact .ok ⟨base, attr, span, rfl⟩
  | _ => exact .misused _ _

theorem holds_checkTargets (targets : List Expr) :
    (checkTargets targets).Holds fun _ => ∀ target ∈ targets, target.IsField := by
  induction targets with
  | nil => exact .ok nofun
  | cons target rest ih =>
    exact (holds_checkTarget target).bind fun _ htarget => fun u hu =>
      List.forall_mem_cons.mpr ⟨htarget, ih u hu⟩

theorem holds_assignStmt {target value : Expr} (span : Span) (htarget : target.NamesOnce)
    (hvalue : value.NamesOnce) : (assignStmt target value span).Holds Stmt.WellFormed :=
  (holds_checkTarget target).bind fun _ hfield =>
    .ok ⟨hfield, List.forall_mem_cons.mpr ⟨htarget, by simpa using hvalue⟩⟩

theorem holds_tupleStmt {targets values : List Expr} (span : Span) (hne : targets ≠ [])
    (htargets : ∀ e ∈ targets, e.NamesOnce) (hvalues : ∀ e ∈ values, e.NamesOnce) :
    (tupleStmt targets values span).Holds Stmt.WellFormed := by
  refine (holds_checkTargets targets).bind fun _ hfields => ?_
  split
  · next hlength =>
    exact .ok ⟨⟨hne, hlength, hfields⟩, List.forall_mem_append.mpr ⟨htargets, hvalues⟩⟩
  · exact .misused _ _

theorem holds_appendStmt {target : Expr} {args : List Expr} (keywords : List Keyword) (span : Span)
    (htarget : target.NamesOnce) (hargs : ∀ e ∈ args, e.NamesOnce) :
    (appendStmt target args keywords span).Holds Stmt.WellFormed := by
  unfold appendStmt
  split
  · next var varSpan attr fieldSpan =>
    split
    · next value => exact .ok ⟨⟨var, varSpan, attr, fieldSpan, rfl⟩,
        List.forall_mem_cons.mpr ⟨htarget, hargs⟩⟩
    · exact .misused _ _
  · exact .misused _ _

theorem holds_exprStmt {value : Expr} (span : Span) (hvalue : value.NamesOnce) :
    (exprStmt value span).Holds Stmt.WellFormed := by
  have hparts : ∀ e ∈ (Stmt.expr value span).parts, e.NamesOnce := by
    simpa [Stmt.parts] using hvalue
  unfold exprStmt
  split
  · next name nameSpan _ _ _ => exact .ok ⟨⟨name, nameSpan, rfl⟩, hparts⟩
  · next target attr _ args keywords _ =>
    obtain ⟨htarget, hargs, -⟩ := hvalue
    split
    · exact holds_appendStmt keywords span htarget (namesOnceAll_iff.mp hargs)
    · exact .misused _ _
  · exact .misused _ _
  · next hcall =>
    refine .ok ⟨?_, hparts⟩
    cases value with
    | call func args keywords callSpan => exact absurd rfl (hcall func args keywords callSpan)
    | _ => trivial

/-! ### The grammar -/

open Pattern

/-- A draft of an expression in which no name of an argument is given twice. -/
abbrev IsSound (d : Draft Expr) : Prop := d.Holds Expr.NamesOnce

theorem gives_numberLit : numberLit.Gives IsSound := by
  refine (gives_true (p := token .number scanNumber)).map fun r _ => ?_
  unfold number
  split
  · exact .ok trivial
  · dsimp only
    split
    · exact .misused _ _
    · split
      · exact .misused _ _
      · exact .ok trivial

theorem gives_literal : literal.Gives IsSound := by
  have hnone : noneLit.Gives IsSound := gives_true.map fun _ _ => .ok trivial
  have hboolean : booleanLit.Gives IsSound := gives_true.map fun _ _ => .ok trivial
  have hstring : stringLit.Gives IsSound := gives_true.map fun _ _ => .ok trivial
  exact hnone.orElse (hboolean.orElse (gives_numberLit.orElse hstring))

section

variable {expression : Pattern (Draft Expr × Span)}

theorem gives_listLit (h : expression.Gives fun r => IsSound r.1) :
    (listLit expression).Gives IsSound := by
  refine (h.commaList.optional.seqLeft.seqRight.rule .listLit).map fun r hr => ?_
  have helements : ∀ d ∈ (r.1.getD []).map (·.1), IsSound d := by
    cases hlist : r.1 with
    | none => simp
    | some es => simpa using hr es hlist
  exact (holds_collect helements).bind fun es hes => .ok (namesOnceAll_iff.mpr hes.2)

theorem gives_argument (h : expression.Gives fun r => IsSound r.1) :
    (argument expression).Gives Argument.NamesOnce := by
  have hkeyword : (keywordArg expression).Gives Argument.NamesOnce :=
    ((Gives.seq (p := identifier) gives_true h.seqRight).rule .keywordArg).map fun _ hr => hr.2
  exact hkeyword.orElse (h.map fun _ hr => hr)

theorem gives_suffix (h : expression.Gives fun r => IsSound r.1) :
    ((callSuffix expression).orElse (attrAccess.orElse (indexAccess expression))).Gives
      fun s => s.1.NamesOnce := by
  have hcall : (callSuffix expression).Gives fun s => s.1.NamesOnce := by
    refine ((gives_argument h).commaList.optional.seqLeft.seqRight.rule .callSuffix).map
      fun r hr => ?_
    cases hargs : r.1 with
    | none => simp [Suffix.NamesOnce]
    | some args => simpa [Suffix.NamesOnce] using hr args hargs
  have hattr : attrAccess.Gives fun s => s.1.NamesOnce := gives_true.map fun _ _ => trivial
  have hindex : (indexAccess expression).Gives fun s => s.1.NamesOnce :=
    (h.seqLeft.seqRight.rule .indexAccess).map fun _ hr => hr
  exact hcall.orElse (hattr.orElse hindex)

theorem gives_postfixExpr (h : expression.Gives fun r => IsSound r.1) :
    (postfixExpr expression).Gives IsSound :=
  ((Gives.seq (p := identifier) gives_true (gives_suffix h).many).rule .postfixExpr).map
    fun _ hr => holds_chain trivial hr.2

theorem gives_expressionWith (h : expression.Gives fun r => IsSound r.1) :
    (expressionWith expression).Gives fun r => IsSound r.1 :=
  (gives_literal.orElse ((gives_listLit h).orElse (gives_postfixExpr h))).rule .expression

end

theorem gives_expression (depth : Nat) : (expression depth).Gives fun r => IsSound r.1 := by
  induction depth with
  | zero => exact gives_fail
  | succ depth ih => exact gives_expressionWith ih

section

variable {expression : Pattern (Draft Expr × Span)}

/-- A tuple has an item at least. -/
theorem gives_tupleOf {α : Type} {item : Pattern α} {P : α → Prop} (h : item.Gives P) :
    (tupleOf item).Gives fun as => as ≠ [] ∧ ∀ a ∈ as, P a := by
  have hmore : ((symbol ',').seqRight item).Gives P := h.seqRight
  have hseveral := (hmore.seq (hmore.many.seqLeft (r := (symbol ',').optional))).map
    (f := fun r => r.1 :: r.2) (Q := fun as => ∀ a ∈ as, P a)
    fun r hr => List.forall_mem_cons.mpr hr
  have hsingle := (gives_true (p := symbol ',')).map (f := fun _ => ([] : List α))
    (Q := fun as => ∀ a ∈ as, P a) fun _ _ => nofun
  dsimp only [tupleOf]
  exact (h.seq (hseveral.orElse hsingle)).map fun r hr =>
    ⟨List.cons_ne_nil _ _, List.forall_mem_cons.mpr hr⟩

theorem gives_tupleAssign (h : expression.Gives fun r => IsSound r.1) :
    (tupleAssign expression).Gives (·.Holds Stmt.WellFormed) := by
  have htargets : (targetList expression).Gives fun ds => ds ≠ [] ∧ ∀ d ∈ ds, IsSound d :=
    ((gives_tupleOf (gives_postfixExpr h)).rule .targetList).map fun _ hr => hr
  have hvalues : (valueList expression).Gives fun ds => ∀ d ∈ ds, IsSound d := by
    have htuple := (gives_tupleOf h).map (f := fun vs => vs.map (·.1))
      (Q := fun ds => ∀ d ∈ ds, IsSound d) fun vs hvs => by simpa using hvs.2
    exact ((htuple.seqLeft.seqRight.orElse htuple).rule .valueList).map fun _ hr => hr
  refine ((htargets.seq hvalues.seqRight).rule .tupleAssign).map fun r ⟨⟨hne, hr⟩, hvs⟩ => ?_
  refine (holds_collect hr).bind fun targets ⟨hlength, htargets⟩ => ?_
  refine (holds_collect hvs).bind fun values ⟨_, hvalues⟩ => ?_
  refine holds_tupleStmt r.2 ?_ htargets hvalues
  rintro rfl
  exact hne (List.length_eq_zero_iff.mp hlength.symm)

theorem gives_statement (h : expression.Gives fun r => IsSound r.1) :
    (statement expression).Gives (·.Holds Stmt.WellFormed) := by
  have hassign : (assign expression).Gives (·.Holds Stmt.WellFormed) :=
    (((gives_postfixExpr h).seq h.seqRight).rule .assign).map fun r hr =>
      hr.1.bind fun _ htarget => hr.2.bind fun _ hvalue => holds_assignStmt r.2 htarget hvalue
  have hexpr : (exprStatement expression).Gives (·.Holds Stmt.WellFormed) :=
    (h.rule .exprStmt).map fun r hr => hr.bind fun _ hvalue => holds_exprStmt r.2 hvalue
  exact (((gives_tupleAssign h).orElse (hassign.orElse hexpr)).rule .statement).map fun _ hr => hr

theorem gives_turn (h : expression.Gives fun r => IsSound r.1) :
    (turn expression).Gives fun ds => ∀ d ∈ ds, d.Holds Stmt.WellFormed := by
  have hstatement := gives_statement h
  have hstatements : (statements expression).Gives fun ds => ∀ d ∈ ds, d.Holds Stmt.WellFormed := by
    dsimp only [statements]
    exact (hstatement.seq hstatement.seqRight.many.seqLeft).map fun r hr =>
      List.forall_mem_cons.mpr hr
  refine (hstatements.optional.seqLeft.seqRight.seqRight.rule .turn).map fun r hr => ?_
  cases hbody : r.1 with
  | none => simp
  | some ds => simpa using hr ds hbody

end

end Syntax

open Syntax

/-- What a text is read as is well formed. -/
theorem Program.wellFormed_of_parse {text : String} {p : Program}
    (h : Program.parse text = .ok p) : p.WellFormed := by
  unfold Program.parse at h
  dsimp only at h
  split at h
  · next drafts after hread =>
    have hdrafts := gives_turn (gives_expression _) _ drafts after hread
    cases hbody : collect drafts with
    | error e => simp [hbody, Except.map] at h
    | ok body =>
      simp only [hbody, Except.map, Except.ok.injEq] at h
      exact h ▸ (holds_collect hdrafts body hbody).2
  · simp at h

namespace Sugar

/-- What sugar stands for is well formed, whatever the call that it is expanded from. -/
theorem wellFormed_meaning (sugar : Sugar) (var : String) (varSpan span : Span) :
    (sugar.meaning var varSpan span).WellFormed := by
  cases sugar with
  | confirm => exact ⟨⟨_, _, _, rfl⟩, by simp [meaning, Stmt.parts, Expr.NamesOnce]⟩
  | resume => exact ⟨trivial, by simp [meaning, Stmt.parts, Expr.NamesOnce]⟩

theorem wellFormed_expand (sugar : Sugar) {p : Program} (h : p.WellFormed) :
    (sugar.expand p).WellFormed := by
  unfold expand
  split
  · next var varSpan span _ => simpa [Program.WellFormed] using sugar.wellFormed_meaning var varSpan span
  · exact h

end Sugar

/-- Rewriting by sugars keeps programs well formed. -/
theorem Rewriter.wellFormed_apply (sugars : List Sugar) {p : Program} (h : p.WellFormed) :
    ((ofSugars sugars).apply p).WellFormed := by
  rw [apply_ofSugars, Sugar.expandAll]
  induction sugars generalizing p with
  | nil => exact h
  | cons sugar sugars ih => exact ih (sugar.wellFormed_expand h)

end TaskDialogue
