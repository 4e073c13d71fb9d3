import TaskDialogue.Proofs.Syntax.Nodes
import TaskDialogue.Proofs.Syntax.Shape
import TaskDialogue.Proofs.Syntax.Words

/-!
# The ranges of what is read

Every node of a program lies where its text stands: its range is not empty, cuts no character in
two, and holds the ranges of the nodes below it, which follow one another in the order of the text.
The range of a name is exactly the name. Blanks that a rule took along at its end belong to the
range of a statement, never to the next one.
-/
namespace TaskDialogue

namespace Syntax

open Pattern Node

variable {text : List Char} {lo mid hi : Nat}

/-- A draft of an expression that fits into a range. -/
abbrev Lays (text : List Char) (lo : Nat) (d : Draft Expr) (hi : Nat) : Prop :=
  d.Holds fun e => (Node.expr e).Fits text lo hi

theorem holds_collect_inOrder {α : Type} {P : Nat → α → Nat → Prop} {ds : List (Draft α)}
    (h : InOrder (fun lo d hi => d.Holds (P lo · hi)) lo ds hi) :
    (collect ds).Holds (InOrder P lo · hi) := by
  induction ds generalizing lo with
  | nil => exact .ok h
  | cons d ds ih =>
    obtain ⟨mid, hd, hds⟩ := h
    exact hd.bind fun a ha => (ih hds).bind fun as has => .ok ⟨mid, ha, has⟩

theorem holds_collect_row {ds : List (Draft Expr)} (h : InOrder (Lays text) lo ds hi) :
    (collect ds).Holds fun es => Row text lo (es.map .expr) hi := fun es hes =>
  InOrder.map (holds_collect_inOrder h es hes)

/-! ### Words -/

theorem cuts_if (cond : List Char → Bool) (h : cond [] = false) :
    Cuts fun cs => if cond (cs.takeWhile isIdentChar) then
      some (cs.takeWhile isIdentChar, cs.dropWhile isIdentChar) else none := by
  intro cs word rest hscan
  obtain ⟨hcond, heq⟩ := Option.ite_none_right_eq_some.mp hscan
  obtain ⟨rfl, rfl⟩ := Prod.mk.inj (Option.some.inj heq)
  refine ⟨List.takeWhile_append_dropWhile.symm, fun hnil => ?_⟩
  simp [hnil, h] at hcond

theorem cuts_scanWord {w : String} (hw : w ≠ "") : Cuts (scanWord w) := by
  have h := cuts_if (fun word => decide (word = w.toList)) (by simpa using hw.symm)
  simp only [decide_eq_true_eq] at h
  exact h

theorem cuts_scanBoolean : Cuts scanBoolean := by
  intro cs word rest hscan
  obtain ⟨w, hw, hword⟩ := List.exists_of_findSome?_eq_some hscan
  refine cuts_scanWord ?_ cs word rest hword
  rintro rfl
  exact absurd hw (by decide)

theorem cuts_scanIdentifier : Cuts scanIdentifier :=
  cuts_if (fun word => word.head?.any isIdentStart && !reserved.any (·.toList = word)) rfl

theorem scanFraction_append (cs : List Char) : (scanFraction cs).1 ++ (scanFraction cs).2 = cs := by
  unfold scanFraction
  split
  · split <;> simp
  · rfl

theorem scanExponent_append (cs : List Char) : (scanExponent cs).1 ++ (scanExponent cs).2 = cs := by
  unfold scanExponent
  split
  · rfl
  · split
    · split <;> dsimp only <;> split <;> simp
    · rfl

/-- What the parts of a number take and leave is what they are given. -/
theorem scanUnsigned_append {sign cs word rest : List Char}
    (h : scanUnsigned sign cs = some (word, rest)) : sign ++ cs = word ++ rest ∧ word ≠ [] := by
  unfold scanUnsigned at h
  split at h
  · cases h
  · next hdigits =>
    obtain ⟨rfl, rfl⟩ := Prod.mk.inj (Option.some.inj h)
    refine ⟨?_, fun hnil => hdigits ?_⟩
    · simp only [List.append_assoc, scanExponent_append, scanFraction_append,
        List.takeWhile_append_dropWhile]
    · simp only [List.append_eq_nil_iff] at hnil
      simp [hnil.1.1.2]

theorem cuts_scanNumber : Cuts scanNumber := by
  intro cs word rest hscan
  by_cases hminus : cs.head? = some '-'
  · obtain ⟨ds, rfl⟩ := List.head?_eq_some_iff.mp hminus
    exact scanUnsigned_append hscan
  · exact scanUnsigned_append (scanNumber_of_unsigned hminus ▸ hscan)

theorem scanQuoted_append (quote : Char) (cs : List Char) :
    (scanQuoted quote cs).1 ++ (scanQuoted quote cs).2 = cs := by
  fun_induction scanQuoted quote cs with
  | case1 => rfl
  | case2 => rfl
  | case3 c rest r ih => simpa using ih
  | case4 c rest _ _ _ => rfl
  | case5 c rest _ _ _ r ih => simpa using ih

theorem cuts_scanString : Cuts scanString := by
  intro cs word rest hscan
  unfold scanString at hscan
  split at hscan
  · cases hscan
  · next q after =>
    have hsplit := scanQuoted_append q after
    split at hscan
    · split at hscan
      · next body c rest' hbody =>
        obtain ⟨rfl, heq⟩ := Option.ite_none_right_eq_some.mp hscan
        obtain ⟨rfl, rfl⟩ := Prod.mk.inj (Option.some.inj heq)
        rw [hbody] at hsplit
        simp [← hsplit]
      · cases hscan
    · cases hscan

/-! ### Expressions -/

theorem fits_leaf {e : Expr} (hspan : e.span.Lies text lo hi) (hlt : e.span.start < e.span.stop)
    (hleaf : (Node.expr e).children = [])
    (hname : ∀ id s, e = .name id s → s.Spells text id.toList) : (Node.expr e).Fits text lo hi := by
  refine fits_of_row hspan hlt ?_ fun id s heq => hname id s (Node.expr.inj heq)
  rw [hleaf]
  exact hlt.le

theorem takes_identifier : identifier.Takes text fun lo r hi =>
    (Node.expr (.name r.1 r.2)).Fits text lo hi := by
  refine (takes_token .identifier cuts_scanIdentifier).map fun lo r hi ⟨hlies, hlt, hspells⟩ => ?_
  refine fits_leaf hlies hlt rfl ?_
  rintro id s ⟨⟩
  simpa using hspells

theorem lays_number {word : List Char} {span : Span} (hlies : span.Lies text lo hi)
    (hlt : span.start < span.stop) : Lays text lo (number word span) hi := by
  unfold number
  split
  · exact .ok (fits_leaf hlies hlt rfl nofun)
  · dsimp only
    split
    · exact .misused _ _
    · split
      · exact .misused _ _
      · exact .ok (fits_leaf hlies hlt rfl nofun)

theorem takes_literal : literal.Takes text (Lays text) := by
  have hnone : noneLit.Takes text (Lays text) :=
    (takes_token .noneLit (cuts_scanWord (by decide))).map fun _ _ _ ⟨hlies, hlt, _⟩ =>
      .ok (fits_leaf hlies hlt rfl nofun)
  have hboolean : booleanLit.Takes text (Lays text) :=
    (takes_token .boolean cuts_scanBoolean).map fun _ _ _ ⟨hlies, hlt, _⟩ =>
      .ok (fits_leaf hlies hlt rfl nofun)
  have hnumber : numberLit.Takes text (Lays text) :=
    (takes_token .number cuts_scanNumber).map fun _ _ _ ⟨hlies, hlt, _⟩ => lays_number hlies hlt
  have hstring : stringLit.Takes text (Lays text) :=
    (takes_token .string cuts_scanString).map fun _ _ _ ⟨hlies, hlt, _⟩ =>
      .ok (fits_leaf hlies hlt rfl nofun)
  exact hnone.orElse (hboolean.orElse (hnumber.orElse hstring))

/-- An argument of a call that fits into a range. -/
def Argument.Lays (text : List Char) (lo : Nat) (a : Argument) (hi : Nat) : Prop :=
  match a with
  | .positional value _ => Syntax.Lays text lo value hi
  | .keyword name value span =>
    value.Holds fun e => (Node.keyword ⟨name, e, span⟩).Fits text lo hi

/-- What follows a name in a chain, within its own range. -/
def Suffix.Lays (text : List Char) (span : Span) : Suffix → Prop
  | .call args => InOrder (Argument.Lays text) span.start args span.stop
  | .attr _ => True
  | .index value => Syntax.Lays text span.start value span.stop

/-- The arguments of a call as nodes. -/
def argumentNodes (r : List Expr × List Keyword) : List Node := r.1.map .expr ++ r.2.map .keyword

theorem holds_arguments_row {as : List Argument} {args : List Expr} {keywords : List Keyword}
    (has : InOrder (Argument.Lays text) mid as hi)
    (h : Row text lo (argumentNodes (args, keywords)) mid) :
    (arguments as args keywords).Holds fun r => Row text lo (argumentNodes r) hi := by
  induction as generalizing args keywords mid with
  | nil => exact .ok (Row.mono h le_rfl has)
  | cons a as ih =>
    obtain ⟨next, ha, hrest⟩ := has
    cases a with
    | positional value span =>
      simp only [arguments]
      split
      · next hnone =>
        obtain rfl : keywords = [] := by simpa using hnone
        refine Draft.Holds.bind ha fun v hv => ih hrest ?_
        simpa [argumentNodes] using Row.append h hv.row
      · exact .misused _ _
    | keyword name value span =>
      simp only [arguments]
      split
      · exact .misused _ _
      · refine Draft.Holds.bind ha fun v hv => ih hrest ?_
        simpa [argumentNodes] using Row.append h hv.row

/-- A chain that goes on covers what it started with. -/
theorem fits_extended {base : Expr} {span : Span} {e : Expr}
    (hbase : (Node.expr base).Fits text lo mid) (hspan : span.Lies text mid hi)
    (hwhole : e.span = base.span.merge span)
    (hrow : Row text base.span.start (Node.expr e).children span.stop)
    (hname : ∀ id s, e ≠ .name id s) : (Node.expr e).Fits text lo hi := by
  have hlt : base.span.start < base.span.stop := hbase.sound.placed.nonempty
  have hle : base.span.stop ≤ span.start := hbase.upper.trans hspan.lower
  have hlong : base.span.start < span.stop := hlt.trans_le (hle.trans hspan.ordered)
  have hcover : e.span = ⟨base.span.start, span.stop⟩ := by
    rw [hwhole, Span.merge, min_eq_left (hlt.le.trans hle),
      max_eq_right (hle.trans hspan.ordered)]
  refine fits_of_row ?_ ?_ ?_ fun id s heq => absurd (Node.expr.inj heq) (hname id s)
  · rw [Node.span, hcover]
    exact ⟨hbase.lower, hlong.le, hspan.upper, hbase.sound.placed.places.1, hspan.stop⟩
  · rwa [Node.span, hcover]
  · rwa [Node.span, hcover]

theorem lays_extend {base : Expr} {suffix : Suffix} {span : Span}
    (hbase : (Node.expr base).Fits text lo mid) (hspan : span.Lies text mid hi)
    (hsuffix : suffix.Lays text span) : Lays text lo (extend base suffix span) hi := by
  have hle : base.span.stop ≤ span.start := hbase.upper.trans hspan.lower
  have hself : (Node.expr base).Fits text base.span.start base.span.stop :=
    ⟨hbase.sound, le_rfl, le_rfl⟩
  cases suffix with
  | call args =>
    have hnone : Row text base.span.stop (argumentNodes ([], [])) span.start := hle
    refine (holds_arguments_row hsuffix hnone).bind fun r hr => .ok ?_
    exact fits_extended hbase hspan rfl ⟨_, hself, hr⟩ nofun
  | attr name =>
    exact .ok (fits_extended hbase hspan rfl ⟨_, hself, hle.trans hspan.ordered⟩ nofun)
  | index value =>
    refine Draft.Holds.bind hsuffix fun v hv => .ok ?_
    exact fits_extended hbase hspan rfl ⟨_, hself, _, hv.mono hle le_rfl, le_rfl⟩ nofun

theorem lays_chain {base : Expr} {suffixes : List (Suffix × Span)}
    (hbase : (Node.expr base).Fits text lo mid)
    (h : InOrder (fun lo s hi => s.2.Lies text lo hi ∧ s.1.Lays text s.2) mid suffixes hi) :
    Lays text lo (chain base suffixes) hi := by
  induction suffixes generalizing base mid with
  | nil => exact .ok (hbase.mono le_rfl h)
  | cons s rest ih =>
    obtain ⟨next, ⟨hspan, hs⟩, hrest⟩ := h
    exact (lays_extend hbase hspan hs).bind fun e he => ih he hrest

section

variable {expression : Pattern (Draft Expr × Span)}

theorem takes_listLit (h : expression.Takes text fun lo r hi => Lays text lo r.1 hi) :
    (listLit expression).Takes text (Lays text) := by
  refine ((h.commaList.optional.seqLeft (takes_symbol ']')).afterSymbol '[' |>.rule .listLit).map
    fun lo r hi ⟨_, hlies, hlt, hitems⟩ => ?_
  refine (holds_collect_row (InOrder.map (InOrder.getD hitems))).bind fun es hes => .ok ?_
  exact fits_of_row hlies hlt hes nofun

theorem takes_argument (h : expression.Takes text fun lo r hi => Lays text lo r.1 hi) :
    (argument expression).Takes text (Argument.Lays text) := by
  have hkeyword : (keywordArg expression).Takes text (Argument.Lays text) := by
    refine ((takes_identifier.seq (h.afterSymbol '=')).rule .keywordArg).map
      fun lo r hi ⟨_, hlies, _, ⟨hlt, hvalue⟩, _⟩ => ?_
    exact fun v hv => fits_of_row hlies hlt (hvalue v hv).row nofun
  exact hkeyword.orElse (h.map fun _ _ _ hr => hr)

theorem takes_suffix (h : expression.Takes text fun lo r hi => Lays text lo r.1 hi) :
    ((callSuffix expression).orElse (attrAccess.orElse (indexAccess expression))).Takes text
      fun lo s hi => s.2.Lies text lo hi ∧ s.1.Lays text s.2 := by
  have hcall : (callSuffix expression).Takes text
      fun lo s hi => s.2.Lies text lo hi ∧ s.1.Lays text s.2 :=
    (((takes_argument h).commaList.optional.seqLeft (takes_symbol ')')).afterSymbol '(' |>.rule
      .callSuffix).map fun _ _ _ ⟨_, hlies, _, hargs⟩ => ⟨hlies, InOrder.getD hargs⟩
  have hattr : attrAccess.Takes text fun lo s hi => s.2.Lies text lo hi ∧ s.1.Lays text s.2 :=
    ((takes_identifier.afterSymbol '.').rule .attrAccess).map fun _ _ _ ⟨_, hlies, _⟩ =>
      ⟨hlies, trivial⟩
  have hindex : (indexAccess expression).Takes text
      fun lo s hi => s.2.Lies text lo hi ∧ s.1.Lays text s.2 :=
    ((h.seqLeft (takes_symbol ']')).afterSymbol '[' |>.rule .indexAccess).map
      fun _ _ _ ⟨_, hlies, _, hvalue⟩ => ⟨hlies, hvalue⟩
  exact hcall.orElse (hattr.orElse hindex)

theorem takes_postfixExpr (h : expression.Takes text fun lo r hi => Lays text lo r.1 hi) :
    (postfixExpr expression).Takes text (Lays text) :=
  ((takes_identifier.seq (takes_suffix h).many).rule .postfixExpr).map
    fun _ _ _ ⟨⟨_, _, _, hname, hsuffixes⟩, _⟩ => lays_chain hname hsuffixes

theorem takes_expressionWith (h : expression.Takes text fun lo r hi => Lays text lo r.1 hi) :
    (expressionWith expression).Takes text fun lo r hi => Lays text lo r.1 hi :=
  ((takes_literal.orElse ((takes_listLit h).orElse (takes_postfixExpr h))).rule .expression).imp
    fun _ _ _ hr => hr.1

end

theorem takes_expression (depth : Nat) :
    (expression depth).Takes text fun lo r hi => Lays text lo r.1 hi := by
  induction depth with
  | zero => exact takes_fail
  | succ depth ih => exact takes_expressionWith ih

/-! ### Statements -/

theorem fits_stmt {s : Stmt} (hspan : s.span.Lies text lo hi) (hlt : s.span.start < s.span.stop)
    (hrow : Row text s.span.start (s.parts.map .expr) s.span.stop) :
    (Node.stmt s).Fits text lo hi :=
  fits_of_row hspan hlt hrow nofun

/-- A draft of a statement that fits into a range. -/
abbrev LaysStmt (text : List Char) (lo : Nat) (d : Draft Stmt) (hi : Nat) : Prop :=
  d.Holds fun s => (Node.stmt s).Fits text lo hi

section

variable {span : Span}

theorem lays_assignStmt {target value : Expr} (hspan : span.Lies text lo hi)
    (hrow : Row text span.start [.expr target, .expr value] span.stop) :
    LaysStmt text lo (assignStmt target value span) hi :=
  (holds_checkTarget target).bind fun _ _ => .ok (fits_stmt hspan (Row.lt hrow) hrow)

theorem lays_tupleStmt {targets values : List Expr} (hspan : span.Lies text lo hi)
    (hlt : span.start < span.stop)
    (hrow : Row text span.start ((targets ++ values).map .expr) span.stop) :
    LaysStmt text lo (tupleStmt targets values span) hi := by
  refine (holds_checkTargets targets).bind fun _ _ => ?_
  split
  · exact .ok (fits_stmt hspan hlt hrow)
  · exact .misused _ _

theorem lays_appendStmt {target : Expr} {args : List Expr} {keywords : List Keyword}
    (hspan : span.Lies text lo hi)
    (hrow : Row text span.start (.expr target :: argumentNodes (args, keywords)) span.stop) :
    LaysStmt text lo (appendStmt target args keywords span) hi := by
  unfold appendStmt
  split
  · split
    · exact .ok (fits_stmt hspan (Row.lt hrow) hrow)
    · exact .misused _ _
  · exact .misused _ _

theorem lays_exprStmt {value : Expr} (hspan : span.Lies text lo hi)
    (hvalue : (Node.expr value).Fits text span.start span.stop) :
    LaysStmt text lo (exprStmt value span) hi := by
  have hself : LaysStmt text lo (.ok (.expr value span)) hi :=
    .ok (fits_stmt hspan hvalue.lt hvalue.row)
  unfold exprStmt
  split
  · exact hself
  · split
    · obtain ⟨mid, hfunc, hargs⟩ := Row.mono hvalue.sound.row hvalue.lower hvalue.upper
      obtain ⟨_, htarget, hle⟩ := hfunc.sound.row
      exact lays_appendStmt hspan
        ⟨mid, htarget.mono hfunc.lower (hle.trans hfunc.upper), hargs⟩
    · exact .misused _ _
  · exact .misused _ _
  · exact hself

end

section

variable {expression : Pattern (Draft Expr × Span)}

theorem takes_tupleOf {α : Type} {item : Pattern α} {P : Nat → α → Nat → Prop}
    (h : item.Takes text P) : (tupleOf item).Takes text (InOrder P) := by
  have hcomma : (symbol ',').Takes text fun lo _ hi => lo < hi := takes_symbol ','
  have hmore := hcomma.seqRight h
  have hseveral := (hmore.seq (hmore.many.seqLeft hcomma.optional)).map
    (f := fun r : α × List α => r.1 :: r.2) (Q := InOrder P) fun _ _ _ hr => hr.2.2
  have hsingle := hcomma.map (f := fun _ => ([] : List α)) (Q := InOrder P)
    fun _ _ _ hlt => hlt.le
  dsimp only [tupleOf]
  exact (h.seq (hseveral.orElse hsingle)).map fun _ _ _ hr => hr.2.2

theorem takes_tupleAssign (h : expression.Takes text fun lo r hi => Lays text lo r.1 hi) :
    (tupleAssign expression).Takes text (LaysStmt text) := by
  have htargets : (targetList expression).Takes text (InOrder (Lays text)) :=
    ((takes_tupleOf (takes_postfixExpr h)).rule .targetList).map fun _ _ _ hr => hr.1
  have hvalues : (valueList expression).Takes text (InOrder (Lays text)) := by
    have htuple := (takes_tupleOf h).map (f := fun vs => vs.map (·.1)) (Q := InOrder (Lays text))
      fun _ _ _ => InOrder.map
    have hclosed := (takes_symbol '(').seqRight (htuple.seqLeft (takes_symbol ')'))
    exact ((hclosed.orElse htuple).rule .valueList).map fun _ _ _ hr => hr.1
  refine ((htargets.seq (hvalues.afterSymbol '=')).rule .tupleAssign).map
    fun lo r hi ⟨_, hlies, _, ⟨hlt, _⟩, mid, hts, _, hvs⟩ => ?_
  refine (holds_collect_row hts).bind fun targets htargets => ?_
  refine (holds_collect_row hvs).bind fun values hvalues => ?_
  refine lays_tupleStmt hlies hlt ?_
  rw [List.map_append]
  exact htargets.append hvalues

theorem takes_statement (h : expression.Takes text fun lo r hi => Lays text lo r.1 hi) :
    (statement expression).Takes text (LaysStmt text) := by
  have hassign : (assign expression).Takes text (LaysStmt text) :=
    (((takes_postfixExpr h).seq (h.afterSymbol '=')).rule .assign).map
      fun _ _ _ ⟨_, hlies, _, _, _, htarget, _, hvalue⟩ => htarget.bind fun _ ht =>
        hvalue.bind fun _ hv => lays_assignStmt hlies ⟨_, ht, hv.row⟩
  have hexpr : (exprStatement expression).Takes text (LaysStmt text) :=
    (h.rule .exprStmt).map fun _ _ _ ⟨_, hlies, hvalue⟩ => hvalue.bind fun _ hv =>
      lays_exprStmt hlies hv
  exact (((takes_tupleAssign h).orElse (hassign.orElse hexpr)).rule .statement).map
    fun _ _ _ hr => hr.1

theorem takes_turn (h : expression.Takes text fun lo r hi => Lays text lo r.1 hi) :
    (turn expression).Takes text (InOrder (LaysStmt text)) := by
  have hstatement := takes_statement h
  have hseparator : separator.Takes text fun _ _ _ => True :=
    ((takes_symbol ';').orElse (takes_symbol '\n')).imp fun _ _ _ _ => trivial
  have hstatements : (statements expression).Takes text (InOrder (LaysStmt text)) := by
    dsimp only [statements]
    exact (hstatement.seq (((hseparator.seq hseparator.many).seqRight hstatement).many.seqLeft
      hseparator.many)).map fun _ _ _ hr => hr.2.2
  exact ((takes_nothing.seqRight (hseparator.many.seqRight
    (hstatements.optional.seqLeft takes_endOfText))).rule .turn).map fun _ _ _ hr =>
      InOrder.getD hr.1

end

end Syntax

open Syntax Pattern Node

/-- The statements of a program stand in order in its text. -/
theorem Program.row_of_parse {text : String} {p : Program} (h : Program.parse text = .ok p) :
    ∃ stop, Row text.toList 0 (p.body.map .stmt) stop := by
  unfold Program.parse at h
  dsimp only at h
  split at h
  · next drafts after hread =>
    have step := takes_turn (takes_expression _) _ drafts after ⟨[], rfl, rfl⟩ hread
    cases hbody : collect drafts with
    | error e => simp [hbody, Except.map] at h
    | ok body =>
      simp only [hbody, Except.map, Except.ok.injEq] at h
      refine ⟨after.offset, h ▸ ?_⟩
      exact InOrder.map (holds_collect_inOrder (step.holds 0 _ le_rfl le_rfl) body hbody)
  · simp at h

/-- Whatever text is read, every node of its program is placed right, and the statements follow
one another in the order of the text. -/
theorem Program.placed_of_parse {text : String} {p : Program} (h : Program.parse text = .ok p) :
    (∀ n, p.Has n → n.Placed text.toList) ∧ (p.body.map Node.stmt).Pairwise Before := by
  obtain ⟨stop, hrow⟩ := row_of_parse h
  obtain ⟨hfits, hordered⟩ := (row_iff (Row.le hrow)).mp hrow
  have hsound : ∀ n, p.Has n → n.Sound text.toList := by
    intro n hn
    induction hn with
    | statement hs => exact (hfits _ (List.mem_map_of_mem hs)).sound
    | child _ hm ih => exact ih.child hm
  exact ⟨fun n hn => (hsound n hn).placed, hordered⟩

/-- The value of a keyword argument, after two characters of two bytes each. -/
theorem Program.placed_of_parse_accents :
    ∃ p, Program.parse "a.b = \"é\" ; c(\"ö\", k=d)" = .ok p ∧
      p.Has (.expr (.name "d" ⟨23, 24⟩)) ∧
      Span.Spells "a.b = \"é\" ; c(\"ö\", k=d)".toList ⟨23, 24⟩ ['d'] := by
  have hparse : Program.parse "a.b = \"é\" ; c(\"ö\", k=d)" = .ok ⟨[
      .assign (.field (.name "a" ⟨0, 1⟩) "b" ⟨0, 3⟩) (.str "é" ⟨6, 10⟩) ⟨0, 10⟩,
      .expr (.call (.name "c" ⟨13, 14⟩) [.str "ö" ⟨15, 19⟩] [⟨"k", .name "d" ⟨23, 24⟩, ⟨21, 24⟩⟩]
        ⟨13, 25⟩) ⟨13, 25⟩]⟩ := by
    decide +kernel
  have hspells := fun hvalue => ((placed_of_parse hparse).1 _ hvalue).spells "d" ⟨23, 24⟩ rfl
  refine ⟨_, hparse, and_iff_left_of_imp hspells |>.mpr ?_⟩
  refine .child (n := .keyword ⟨"k", .name "d" ⟨23, 24⟩, ⟨21, 24⟩⟩) ?_ (.head _)
  exact .child (n := .expr (.call _ [_] [_] _)) (.child (n := .stmt (.expr _ _))
    (.statement (.tail _ (.head _))) (.head _)) (.tail _ (.tail _ (.head _)))

end TaskDialogue
