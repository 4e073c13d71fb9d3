import TaskDialogue.Proofs.Syntax.Expressions

/-!
# Statements are read back

Every sentence is read from its written form as the one statement that it is. The grammar tries a
tuple first, then an assignment and then an expression: what stands after the first chain, a comma,
an equals sign or nothing, decides which of them it is.
-/
namespace TaskDialogue

open Syntax Pattern

namespace Syntax

variable {depth : Nat} {e : Expr} {stmt : Stmt}

/-! ### What statements are put together from -/

theorem checkTarget_of_isField (h : e.IsField) : checkTarget e = .ok () := by
  obtain ⟨base, attr, span, rfl⟩ := h
  rfl

theorem checkTargets_of_isField {targets : List Expr} (h : ∀ target ∈ targets, target.IsField) :
    checkTargets targets = .ok () := by
  induction targets with
  | nil => rfl
  | cons target rest ih =>
    obtain ⟨htarget, hrest⟩ := List.forall_mem_cons.mp h
    rw [checkTargets, checkTarget_of_isField htarget]
    exact ih hrest

theorem assignStmt_of_isField {target value : Expr} (span : Span) (h : target.IsField) :
    assignStmt target value span = .ok (.assign target value span) := by
  rw [assignStmt, checkTarget_of_isField h]
  rfl

theorem tupleStmt_of_isField {targets values : List Expr} (span : Span)
    (h : ∀ target ∈ targets, target.IsField) (hlength : targets.length = values.length) :
    tupleStmt targets values span = .ok (.tupleAssign targets values span) := by
  rw [tupleStmt, checkTargets_of_isField h, if_pos hlength]
  rfl

theorem exprStmt_of_shaped {value : Expr} {span : Span} (h : (Stmt.expr value span).Shaped) :
    exprStmt value span = .ok (.expr value span) := by
  cases value with
  | call func args keywords callSpan =>
    obtain ⟨name, nameSpan, rfl⟩ := h
    rfl
  | _ => rfl

/-- The call that appends to a field of a variable. -/
def appendCall (target value : Expr) : Expr :=
  .call (.field target "append" .none) [value] [] .none

theorem print_appendCall (target value : Expr) (span : Span) :
    (appendCall target value).print = (Stmt.append target value span).print := by
  simp [appendCall, Expr.print, Stmt.print, printAll, printKeywords, commaSeparated_cons]

theorem isPhrase_appendCall {target value : Expr} (htarget : target.IsVariableField)
    (hphrase : target.IsPhrase) (hvalue : value.IsPhrase) : (appendCall target value).IsPhrase := by
  have hchain : target.IsChain := by
    obtain ⟨var, varSpan, attr, span, rfl⟩ := htarget
    trivial
  exact ⟨trivial, ⟨hchain, hphrase, by decide⟩, ⟨hvalue, trivial⟩, trivial, List.nodup_nil⟩

theorem exprStmt_appendCall {target value : Expr} (span : Span) (h : target.IsVariableField) :
    exprStmt (appendCall target value) span = .ok (.append target value span) := by
  obtain ⟨var, varSpan, attr, fieldSpan, rfl⟩ := h
  rfl

/-! ### Statements -/

theorem isChain_of_isField (h : e.IsField) : e.IsChain := by
  obtain ⟨base, attr, span, rfl⟩ := h
  trivial

theorem reads_chainOf (hchain : e.IsChain) (h : e.IsPhrase) (hlength : e.print.length ≤ depth)
    {tail : List Char} (htail : EndsWord tail) (hend : EndsChain tail)
    (hrest : afterSpace tail = tail ∨ e.IsField) :
    (postfixExpr (expression depth)).Reads (e.print ++ tail) (Draft.Rel Expr.Like (.ok e)) tail :=
  reads_postfixExpr (n := depth) (fun v hv hlt => reads_expression depth v hv hlt)
    (refuses_expression (.inl rfl) depth) hchain h hlength htail hend hrest

/-- The draft of an expression statement, from a draft that is like the expression. -/
theorem rel_exprStmt {s : Span} {t : Stmt} (hbuilt : exprStmt e s = .ok t) (hlike : stmt.Like t)
    {v : Draft Expr} (hv : Draft.Rel Expr.Like (.ok e) v) (span : Span) :
    Draft.Rel Stmt.Like (.ok stmt) (do let value ← v; exprStmt value span) := by
  obtain ⟨f, rfl, hf⟩ := hv.of_ok
  have hrel := like_exprStmt s span hf
  rw [hbuilt] at hrel
  obtain ⟨t', ht', hlike'⟩ := hrel.of_ok
  have hdraft : (do let value ← (.ok f : Draft Expr); exprStmt value span) = .ok t' := ht'
  rw [hdraft]
  exact .ok (hlike.trans hlike')

/-- An expression is a statement when nothing follows it. -/
theorem reads_exprStatement (h : e.IsPhrase) (hlength : e.print.length < depth) {s : Span} {t : Stmt}
    (hbuilt : exprStmt e s = .ok t) (hlike : stmt.Like t) :
    (statement (expression depth)).Reads e.print (Draft.Rel Stmt.Like (.ok stmt)) [] := by
  have hvalue := reads_expression depth e h hlength [] .nil
  rw [List.append_nil] at hvalue
  have hread : (statement (expression depth)).Reads e.print
      (fun d => ∃ v span, Draft.Rel Expr.Like (.ok e) v ∧
        d = (do let value ← v; exprStmt value span)) [] := by
    by_cases hchain : e.IsChain
    · have htarget := reads_chainOf hchain h hlength.le Closes.nil.endsWord
        Closes.nil.endsChain (.inl rfl)
      rw [List.append_nil] at htarget
      exact reads_statement htarget (by simp [afterSpace]) (by simp [afterSpace]) hvalue
    · have hidentifier := refuses_identifier_print h hchain Closes.nil.endsWord
      rw [List.append_nil] at hidentifier
      exact reads_statement_plain (hidentifier.seq.rule _).map hvalue
  refine hread.imp ?_
  rintro _ ⟨v, span, hv, rfl⟩
  exact rel_exprStmt hbuilt hlike hv span

/-- The equals sign of an assignment, with the blanks around it. -/
theorem endsChain_equals (cs : List Char) : EndsChain (" = ".toList ++ cs) := by
  simp [EndsChain, afterSpace, Cursor.isSpace]

theorem endsWord_equals (cs : List Char) : EndsWord (" = ".toList ++ cs) := by
  rintro _ ⟨⟩
  rfl

/-- What follows the targets of an assignment: the equals sign, then the values. -/
theorem reads_equals {α : Type} {p : Pattern α} {P : α → Prop} {values rest : List Char}
    (h : p.Reads values P rest) (hstart : ∃ c cs, values = c :: cs ∧ Cursor.isSpace c = false) :
    ((symbol '=').seqRight p).Reads (afterSpace (" = ".toList ++ values)) P rest := by
  obtain ⟨c, cs, rfl, hc⟩ := hstart
  have hspace : afterSpace (" = ".toList ++ c :: cs) = '=' :: ' ' :: c :: cs := by
    simp [afterSpace, Cursor.isSpace]
  have hnext : afterSpace (' ' :: c :: cs) = c :: cs :=
    (List.dropWhile_cons_of_pos rfl).trans (afterSpace_cons hc cs)
  rw [← hnext] at h
  rw [hspace]
  exact (reads_symbol '=' _).seqRight h

theorem head_equals (cs : List Char) : (afterSpace (" = ".toList ++ cs)).head? ≠ some ',' := by
  simp [afterSpace, Cursor.isSpace]

/-- An assignment to a field. -/
theorem reads_assign {target value : Expr} {span : Span} (hfield : target.IsField)
    (htarget : target.IsPhrase) (hvalue : value.IsPhrase)
    (hlength : (Stmt.assign target value span).print.length < depth) :
    (statement (expression depth)).Reads (Stmt.assign target value span).print
      (Draft.Rel Stmt.Like (.ok (.assign target value span))) [] := by
  simp only [Stmt.print, List.length_append] at hlength
  have hshort : target.print.length ≤ depth := by omega
  have hread := reads_chainOf (isChain_of_isField hfield) htarget hshort
    (endsWord_equals value.print) (endsChain_equals value.print) (.inr hfield)
  have hexpr := reads_expression depth value hvalue (by omega) [] .nil
  rw [List.append_nil] at hexpr
  have hequals := reads_equals hexpr (start_isSpace hvalue)
  rw [Stmt.print, List.append_assoc]
  have hassign : (assign (expression depth)).Reads (target.print ++ (" = ".toList ++ value.print))
      (Draft.Rel Stmt.Like (.ok (.assign target value span))) [] := by
    refine ((hread.seq hequals).rule .assign).map fun r hr => ?_
    obtain ⟨target', htarget', hlike⟩ := hr.1.of_ok
    obtain ⟨value', hvalue', hlike'⟩ := hr.2.of_ok
    have hrel := like_assignStmt span r.2 hlike hlike'
    rw [assignStmt_of_isField span hfield] at hrel
    rwa [htarget', hvalue']
  exact (((refuses_tupleAssign hread (head_equals _)).orElse hassign.orElse).rule
    .statement).map fun r hr => hr

theorem itemReads_target {target : Expr} (hfield : target.IsField) (h : target.IsPhrase)
    (hlength : target.print.length ≤ depth) (values : List Char) :
    ItemReads (postfixExpr (expression depth)) Expr.print (fun e => Draft.Rel Expr.Like (.ok e))
      (" = ".toList ++ values) target where
  start := start_isSpace h
  reads rest hrest := by
    have hend : EndsWord rest ∧ EndsChain rest := by
      obtain rfl | hcomma := hrest
      · exact ⟨endsWord_equals values, endsChain_equals values⟩
      · have hclose : Closes rest := fun c hc => .inl (Option.some.inj (hc.symm.trans hcomma))
        exact ⟨hclose.endsWord, hclose.endsChain⟩
    exact reads_chainOf (isChain_of_isField hfield) h hlength hend.1 hend.2 (.inr hfield)

/-- The values of a tuple, without parentheses. -/
theorem reads_valueList {v v' : Expr} {vs : List Expr} (h : ∀ e ∈ v :: v' :: vs, e.IsPhrase)
    (hlength : (commaSeparated (printAll (v :: v' :: vs))).length < depth) :
    (valueList (expression depth)).Reads (commaSeparated (printAll (v :: v' :: vs)))
      (List.Forall₂ (fun e => Draft.Rel Expr.Like (.ok e)) (v :: v' :: vs)) [] := by
  rw [printAll_eq_map] at hlength ⊢
  have hitem : ∀ e ∈ v :: v' :: vs, ItemReads (expression depth) Expr.print
      (fun e r => Draft.Rel Expr.Like (.ok e) r.1) [] e := fun e he =>
    have hle := length_le_commaSeparated (List.mem_map_of_mem (f := Expr.print) he)
    itemReads_print (reads_expression depth e (h e he) (by omega)) (h e he) .nil
  have htuple := reads_tupleOf hitem (by simp [afterSpace])
  have hparen := head_print (h v List.mem_cons_self) (afterComma ((v' :: vs).map Expr.print))
    (d := '(') (by decide)
  rw [← commaSeparated_cons, ← List.map_cons] at hparen
  rw [List.append_nil] at htuple
  have hvalues := htuple.map (f := fun rs => rs.map (·.1))
    (R := List.Forall₂ (fun e => Draft.Rel Expr.Like (.ok e)) (v :: v' :: vs))
    fun rs hrs => List.forall₂_map_right_iff.mpr hrs
  exact (((refuses_symbol hparen).seqRight.orElse hvalues).rule .valueList).map fun r hr => hr

/-- Two targets or more, each a field, and as many values. -/
theorem reads_tupleAssign {t t' v v' : Expr} {ts vs : List Expr} {span : Span}
    (hfields : ∀ target ∈ t :: t' :: ts, target.IsField)
    (htargets : ∀ e ∈ t :: t' :: ts, e.IsPhrase) (hvalues : ∀ e ∈ v :: v' :: vs, e.IsPhrase)
    (hcount : (t :: t' :: ts).length = (v :: v' :: vs).length)
    (hlength : (Stmt.tupleAssign (t :: t' :: ts) (v :: v' :: vs) span).print.length < depth) :
    (statement (expression depth)).Reads (Stmt.tupleAssign (t :: t' :: ts) (v :: v' :: vs) span).print
      (Draft.Rel Stmt.Like (.ok (.tupleAssign (t :: t' :: ts) (v :: v' :: vs) span))) [] := by
  simp only [Stmt.print, List.length_append] at hlength
  have hshort : (commaSeparated (printAll (v :: v' :: vs))).length < depth := by omega
  have hvalueList := reads_valueList hvalues hshort
  have hstart : ∃ c cs, commaSeparated (printAll (v :: v' :: vs)) = c :: cs ∧
      Cursor.isSpace c = false := by
    obtain ⟨c, cs, hcons, hspace⟩ := start_isSpace (hvalues v List.mem_cons_self)
    exact ⟨c, _, by rw [printAll, commaSeparated_cons, hcons, List.cons_append], hspace⟩
  have hequals := reads_equals hvalueList hstart
  rw [← afterSpace_afterSpace] at hequals
  have hitem : ∀ e ∈ t :: t' :: ts, ItemReads (postfixExpr (expression depth)) Expr.print
      (fun e => Draft.Rel Expr.Like (.ok e))
      (" = ".toList ++ commaSeparated (printAll (v :: v' :: vs))) e := fun e he =>
    have hle := length_le_commaSeparated (printAll_eq_map (t :: t' :: ts) ▸ List.mem_map_of_mem he)
    itemReads_target (hfields e he) (htargets e he) (by omega) _
  have htuple := reads_tupleOf hitem (head_equals _)
  rw [← printAll_eq_map] at htuple
  have htargetList := (htuple.rule .targetList).map (f := (·.1))
    (R := List.Forall₂ (fun e => Draft.Rel Expr.Like (.ok e)) (t :: t' :: ts)) fun r hr => hr
  rw [Stmt.print, List.append_assoc]
  refine Reads.map (R := Draft.Rel Stmt.Like _) (P := fun r => Draft.Rel Stmt.Like _ r.1)
    ((Reads.orElse ?_).rule .statement) fun r hr => hr
  refine ((htargetList.seq hequals).rule .tupleAssign).map fun r hr => ?_
  obtain ⟨targets, htargets', hlike⟩ := (like_collect_ok hr.1).of_ok
  obtain ⟨values, hvalues', hlike'⟩ := (like_collect_ok hr.2).of_ok
  have hrel := like_tupleStmt span r.2 hlike hlike'
  rw [tupleStmt_of_isField span hfields hcount] at hrel
  rwa [htargets', hvalues']

/-- A sentence starts with neither a blank nor a separator. -/
theorem start_print_stmt (h : stmt.IsSentence) :
    afterSpace stmt.print = stmt.print ∧ separator.Refuses stmt.print := by
  obtain ⟨e, he, rest, hprint⟩ : ∃ e : Expr, e.IsPhrase ∧ ∃ rest, stmt.print = e.print ++ rest := by
    cases stmt with
    | expr value span => exact ⟨value, h.phrases _ List.mem_cons_self, [], (List.append_nil _).symm⟩
    | assign target value span =>
      exact ⟨target, h.phrases _ List.mem_cons_self, _, List.append_assoc _ _ _⟩
    | append target value span =>
      refine ⟨target, h.phrases _ List.mem_cons_self, ".append(".toList ++ (value.print ++ [')']), ?_⟩
      simp only [Stmt.print, List.append_assoc]
    | tupleAssign targets values span =>
      cases targets with
      | nil => exact absurd rfl h.shaped.1
      | cons t ts =>
        refine ⟨t, h.phrases _ List.mem_cons_self,
          afterComma (printAll ts) ++ (" = ".toList ++ commaSeparated (printAll values)), ?_⟩
        simp only [Stmt.print, printAll, commaSeparated_cons, List.append_assoc]
  rw [hprint]
  exact ⟨afterSpace_print he rest,
    refuses_separator (head_print he rest rfl) (head_print he rest rfl)⟩

/-- A sentence is read whole. -/
theorem reads_statement_print (h : stmt.IsSentence) (hlength : stmt.print.length < depth) :
    (statement (expression depth)).Reads stmt.print (Draft.Rel Stmt.Like (.ok stmt)) [] := by
  cases stmt with
  | expr value span =>
    have hvalue := h.phrases value List.mem_cons_self
    exact reads_exprStatement hvalue hlength (exprStmt_of_shaped h.shaped) rfl
  | assign target value span =>
    obtain ⟨htarget, hvalue⟩ := List.forall_mem_cons.mp h.phrases
    exact reads_assign h.shaped htarget (hvalue value List.mem_cons_self) hlength
  | tupleAssign targets values span =>
    obtain ⟨-, hcount, hfields⟩ := h.shaped
    obtain ⟨htargets, hvalues⟩ := List.forall_mem_append.mp h.phrases
    match targets, values, h.several targets values span rfl, hcount with
    | t :: t' :: ts, v :: v' :: vs, _, hcount =>
      exact reads_tupleAssign hfields htargets hvalues hcount hlength
  | append target value span =>
    obtain ⟨htarget, hvalue⟩ := List.forall_mem_cons.mp h.phrases
    have hcall := isPhrase_appendCall h.shaped htarget (hvalue value List.mem_cons_self)
    rw [← print_appendCall] at hlength ⊢
    exact reads_exprStatement hcall hlength (exprStmt_appendCall span h.shaped) rfl

end Syntax

/-- A sentence is the only statement of the text that it is written as. -/
theorem Program.parse_print {stmt : Stmt} (h : stmt.IsSentence) :
    ∃ p, Program.parse (String.ofList stmt.print) = .ok p ∧ p.erase = ⟨[stmt.erase]⟩ := by
  have hstatement := reads_statement_print h (Nat.lt_succ_self _)
  obtain ⟨hspace, hseparator⟩ := start_print_stmt h
  obtain ⟨ds, ⟨d, rfl, hd⟩, hparse⟩ := parse_of_turn (reads_turn hspace hseparator hstatement)
  obtain ⟨stmt', rfl, hlike⟩ := hd.of_ok
  refine ⟨⟨[stmt']⟩, hparse, ?_⟩
  rw [Program.erase, List.map_singleton, ← hlike]

/-- `x0.time, x0.label = Time(8, minute=30), ["swim"]` -/
def timeAndLabel : Stmt :=
  .tupleAssign [.field (.name "x0" .none) "time" .none, .field (.name "x0" .none) "label" .none]
    [.call (.name "Time" .none) [.int 8 .none] [⟨"minute", .int 30 .none, .none⟩] .none,
      .list [.str "swim" .none] .none] .none

theorem isSentence_timeAndLabel : timeAndLabel.IsSentence where
  shaped := ⟨by simp, rfl, by simp [Expr.IsField]⟩
  phrases := by
    simp only [timeAndLabel, Stmt.parts, List.cons_append, List.nil_append, List.forall_mem_cons,
      Expr.IsPhrase, Expr.IsChain, ArePhrases, AreNamed, List.not_mem_nil, false_imp_iff,
      implies_true, List.map_singleton]
    decide
  several := by
    rintro _ _ _ ⟨⟩
    decide

theorem Program.parse_timeAndLabel : timeAndLabel.IsSentence ∧
    ∃ p, Program.parse "x0.time, x0.label = Time(8, minute=30), [\"swim\"]" = .ok p ∧
      p.erase = ⟨[timeAndLabel.erase]⟩ := by
  have htext : String.ofList timeAndLabel.print =
      "x0.time, x0.label = Time(8, minute=30), [\"swim\"]" := by decide
  exact ⟨isSentence_timeAndLabel, htext ▸ Program.parse_print isSentence_timeAndLabel⟩

end TaskDialogue
