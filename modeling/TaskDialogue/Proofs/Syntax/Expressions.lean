import TaskDialogue.Proofs.Syntax.Chains

/-!
# Expressions are read back

The written form of an expression is read as an expression like it, before anything that may follow
it. Within the step from one depth of the grammar to the next the expressions that are shorter are
read back already: they are the items of a list, the indices and the arguments of a chain.
-/
namespace TaskDialogue.Syntax

open Pattern

/-- The written form of an expression is read as an expression like it. -/
def ReadsBack (x : Pattern (Draft Expr × Span)) (e : Expr) : Prop :=
  ∀ tail, Closes tail → x.Reads (e.print ++ tail) (fun r => Draft.Rel Expr.Like (.ok e) r.1) tail

section

variable {x : Pattern (Draft Expr × Span)} {n : Nat} {tail : List Char}

theorem reads_attr {attr : String} (h : IsName attr.toList) (htail : EndsWord tail) :
    (suffix x).Reads ('.' :: attr.toList ++ tail) (fun r => (Suffix.attr attr).Like r.1) tail := by
  have hname := reads_identifier h htail
  rw [← afterSpace_name h] at hname
  have hattr := (reads_symbol '.' _).seqRight hname
  refine ((refuses_symbol (by simp)).seqRight.rule _).map.orElse ?_
  refine ((hattr.rule .attrAccess).map fun r hr => ?_).orElse
  rw [hr, String.ofList_toList]
  exact .attr attr

theorem reads_index {index : Expr} (h : ReadsBack x index) (hindex : index.IsPhrase) (tail : List Char) :
    (suffix x).Reads ('[' :: (index.print ++ [']']) ++ tail)
      (fun r => (Suffix.index (.ok index)).Like r.1) tail := by
  have hclose : Closes (']' :: tail) := .cons (by simp) tail
  have hvalue := h _ hclose
  rw [← afterSpace_print hindex] at hvalue
  have hend := reads_symbol ']' tail
  rw [← afterSpace_cons (by decide) tail] at hend
  have hwhole := (reads_symbol '[' _).seqRight (hvalue.seqLeft hend)
  rw [List.cons_append, List.append_assoc]
  refine ((refuses_symbol (by simp)).seqRight.rule _).map.orElse ?_
  refine ((refuses_symbol (by simp)).seqRight.rule _).map.orElse ?_
  exact (hwhole.rule .indexAccess).map fun r hr => .index hr

/-- What starts a chain or another expression is no argument by name, unless an equals sign follows. -/
theorem refuses_keywordArg_print {e : Expr} (h : e.IsPhrase) (htail : Closes tail) :
    (keywordArg x).Refuses (e.print ++ tail) := by
  by_cases hchain : e.IsChain
  · obtain ⟨name, links, hl⟩ := headed e hchain h
    rw [hl.print, List.append_assoc]
    have hname := reads_identifier hl.named (hl.endsWord htail.endsWord)
    have hequals : (afterSpace (links ++ tail)).head? ≠ some '=' := by
      cases links with
      | nil =>
        rw [List.nil_append, htail.afterSpace]
        exact htail.head (by decide)
      | cons c links =>
        rw [hl.afterSpace (List.cons_ne_nil c links)]
        rintro ⟨⟩
        simpa using hl.start '=' rfl
    exact ((hname.seq_refuses (refuses_symbol hequals).seqRight).rule _).map
  · exact ((refuses_identifier_print h hchain htail.endsWord).seq.rule _).map

/-- What follows an item closes it, when what follows the last one does. -/
theorem Closes.of_item {rest : List Char} (htail : Closes tail)
    (h : rest = tail ∨ rest.head? = some ',') : Closes rest := by
  obtain rfl | hcomma := h
  · exact htail
  · intro d hd
    exact .inl (Option.some.inj (hd.symm.trans hcomma))

theorem itemReads_print {e : Expr} (h : ReadsBack x e) (he : e.IsPhrase) (htail : Closes tail) :
    ItemReads x Expr.print (fun e r => Draft.Rel Expr.Like (.ok e) r.1) tail e where
  start := start_isSpace he
  reads rest hrest := h rest (htail.of_item hrest)

theorem itemReads_argument {a : Argument} {args : List Expr} {keywords : List Keyword}
    {cs : List Char} (ha : a ∈ callArguments args keywords)
    (hargs : ∀ e ∈ args, e.IsPhrase ∧ ReadsBack x e)
    (hkeywords : ∀ k ∈ keywords, (IsName k.arg.toList ∧ k.value.IsPhrase) ∧ ReadsBack x k.value) :
    ItemReads (argument x) Argument.print Argument.Like (')' :: cs) a := by
  have htail : Closes (')' :: cs) := .cons (by simp) cs
  obtain ha | ha := List.mem_append.mp ha
  · obtain ⟨e, he, rfl⟩ := List.mem_map.mp ha
    obtain ⟨hphrase, hreads⟩ := hargs e he
    refine ⟨start_isSpace hphrase, fun rest hrest => ?_⟩
    have hclose := htail.of_item hrest
    exact (refuses_keywordArg_print hphrase hclose).orElse
      ((hreads rest hclose).map fun r hr => .positional hr)
  · obtain ⟨k, hk, rfl⟩ := List.mem_map.mp ha
    obtain ⟨⟨hname, hphrase⟩, hreads⟩ := hkeywords k hk
    refine ⟨?_, fun rest hrest => ?_⟩
    · obtain ⟨c, cs, hcons, hstart⟩ := start_isSpace (e := .name k.arg k.span) hname
      exact ⟨c, _, congrArg (· ++ _) hcons, hstart⟩
    · have hvalue := hreads rest (htail.of_item hrest)
      rw [← afterSpace_print hphrase] at hvalue
      have hequals := (reads_symbol '=' _).seqRight hvalue
      rw [← afterSpace_cons (by decide)] at hequals
      have hends : EndsWord ('=' :: (k.value.print ++ rest)) := by rintro _ ⟨⟩; rfl
      have hword := reads_identifier hname hends
      have hprint : (Argument.keyword k.arg (.ok k.value) k.span).print ++ rest =
          k.arg.toList ++ '=' :: (k.value.print ++ rest) := List.append_assoc _ _ _
      rw [hprint]
      refine (((hword.seq hequals).rule .keywordArg).map fun r hr => ?_).orElse
      rw [hr.1, String.ofList_toList]
      exact .keyword hr.2

/-- Nothing that closes a list starts an item of it. -/
theorem refuses_closing {c : Char} (hc : c = ')' ∨ c = ']') (cs : List Char) :
    (expressionWith x).Refuses (c :: cs) := by
  have hstart : ∀ d, (c :: cs).head? = some d → isIdentStart d = false := by
    rintro _ ⟨⟩
    obtain rfl | rfl := hc <;> rfl
  obtain ⟨hnone, hboolean⟩ := refuses_words hstart
  have hnumber : scanNumber (c :: cs) = none := by
    refine scanNumber_of_head ?_ ?_
    · obtain rfl | rfl := hc <;> simp
    · rintro _ ⟨⟩
      obtain rfl | rfl := hc <;> rfl
  have hstring : scanString (c :: cs) = none := by
    obtain rfl | rfl := hc <;> exact scanString_of_head (by simp) (by simp)
  have hliteral : literal.Refuses (c :: cs) := hnone.orElse_refuses
    (hboolean.orElse_refuses ((refuses_token hnumber).map.orElse_refuses (refuses_token hstring).map))
  have hlist : (listLit x).Refuses (c :: cs) := by
    obtain rfl | rfl := hc <;> exact refuses_listLit (by simp)
  exact (hliteral.orElse_refuses (hlist.orElse_refuses
    ((refuses_identifier_of_start hstart).seq.rule _).map)).rule .expression

theorem reads_call {args : List Expr} {keywords : List Keyword}
    (hargs : ∀ e ∈ args, e.IsPhrase ∧ ReadsBack x e)
    (hkeywords : ∀ k ∈ keywords, (IsName k.arg.toList ∧ k.value.IsPhrase) ∧ ReadsBack x k.value)
    (hnone : ∀ cs, x.Refuses (')' :: cs)) (tail : List Char) :
    (suffix x).Reads
      ('(' :: (commaSeparated (printAll args ++ printKeywords keywords) ++ [')']) ++ tail)
      (fun r => (Suffix.call (callArguments args keywords)).Like r.1) tail := by
  have hrefuses : (argument x).Refuses (')' :: tail) :=
    ((refuses_identifier_of_start (by rintro _ ⟨⟩; rfl)).seq.rule _).map.orElse_refuses (hnone tail).map
  have hitems := reads_items (p := argument x)
    (fun a ha => itemReads_argument ha hargs hkeywords) hrefuses
    (afterSpace_cons (by decide) tail) (by simp)
  have hend := reads_symbol ')' tail
  rw [← afterSpace_cons (by decide) tail] at hend
  have hwhole := (reads_symbol '(' _).seqRight (hitems.seqLeft hend)
  rw [print_callArguments, List.cons_append, List.append_assoc]
  exact ((hwhole.rule .callSuffix).map fun r hr => .call hr).orElse

variable {n : Nat} (hx : ∀ v : Expr, v.IsPhrase → v.print.length < n → ReadsBack x v)
  (hnone : ∀ cs, x.Refuses (')' :: cs))
include hx hnone

/-- The links of a chain are read when the shorter expressions are. -/
theorem linked : (e : Expr) → e.IsChain → e.IsPhrase → e.print.length ≤ n →
    ∃ name links Ps, Linked x e name links Ps
  | .name _ s, _, h, _ => ⟨_, _, _, .of_name s h⟩
  | .field base attr _, _, ⟨hchain, hbase, hattr⟩, hlength => by
    simp only [Expr.print, List.length_append, List.length_cons] at hlength
    obtain ⟨name, links, Ps, hlinked⟩ := linked base hchain hbase (by omega)
    exact ⟨name, _, _, hlinked.extend rfl (by simp) (fun tail => reads_attr hattr)
      ⟨.none, _, rfl, (Expr.Like.refl base).field attr⟩⟩
  | .subscript base index _, _, ⟨hchain, hbase, hindex⟩, hlength => by
    simp only [Expr.print, List.length_append, List.length_cons] at hlength
    obtain ⟨name, links, Ps, hlinked⟩ := linked base hchain hbase (by omega)
    exact ⟨name, _, _, hlinked.extend rfl (by simp)
      (fun tail _ => reads_index (hx index hindex (by omega)) hindex tail)
      ⟨.none, _, rfl, (Expr.Like.refl base).subscript (.refl index)⟩⟩
  | .call func args keywords _, _, ⟨hchain, hfunc, hargs, hkeywords, hnodup⟩, hlength => by
    simp only [Expr.print, List.length_append, List.length_cons] at hlength
    obtain ⟨name, links, Ps, hlinked⟩ := linked func hchain hfunc (by omega)
    have hpositional : ∀ e ∈ args, e.IsPhrase ∧ ReadsBack x e := by
      intro e he
      have hphrase := arePhrases_iff.mp hargs e he
      have hle := length_le_commaSeparated
        (List.mem_append_left (printKeywords keywords) (printAll_eq_map args ▸ List.mem_map_of_mem he))
      exact ⟨hphrase, hx e hphrase (by omega)⟩
    have hnamed : ∀ k ∈ keywords, (IsName k.arg.toList ∧ k.value.IsPhrase) ∧ ReadsBack x k.value := by
      intro k hk
      have hnamed := areNamed_iff.mp hkeywords k hk
      have hle := length_le_commaSeparated
        (List.mem_append_right (printAll args) (printKeywords_eq_map keywords ▸ List.mem_map_of_mem hk))
      simp only [Keyword.print, List.length_append, List.length_cons] at hle
      exact ⟨hnamed, hx k.value hnamed.2 (by omega)⟩
    exact ⟨name, _, _, hlinked.extend rfl (by simp)
      (fun tail _ => reads_call hpositional hnamed hnone tail)
      ⟨.none, _, extend_callArguments func .none hnodup, (Expr.Like.refl func).call
        (List.forall₂_same.mpr fun e _ => .refl e)
        (List.forall₂_same.mpr fun k _ => ⟨rfl, .refl k.value⟩)⟩⟩

/-- A chain is read whole, but for the blanks after a bare name. -/
theorem reads_postfixExpr {e : Expr} (hchain : e.IsChain) (h : e.IsPhrase) (hlength : e.print.length ≤ n)
    (htail : EndsWord tail) (hend : EndsChain tail) (hrest : afterSpace tail = tail ∨ e.IsField) :
    (postfixExpr x).Reads (e.print ++ tail) (Draft.Rel Expr.Like (.ok e)) tail := by
  obtain ⟨name, links, Ps, hlinked⟩ := linked hx hnone e hchain h hlength
  have hname := reads_identifier hlinked.named (hlinked.endsWord htail)
  have hrefuses := refuses_suffix (e := x) hend
  have hlinks : (suffix x).many.Reads (afterSpace (links ++ tail))
      (fun rs => List.Forall₂ (fun P r => P r) Ps rs) tail := by
    have hrounds := hlinked.rounds tail htail
    by_cases hbare : links = []
    · have hspace := hrest.resolve_right (hlinked.bare hbare)
      rw [hbare, List.nil_append] at hrounds ⊢
      rw [hspace]
      exact hrounds.many hspace hrefuses
    · rw [hlinked.afterSpace hbare]
      exact hrounds.many (hlinked.afterSpace hbare tail) hrefuses
  rw [hlinked.print, List.append_assoc]
  refine ((hname.seq hlinks).rule .postfixExpr).map fun r hr => ?_
  rw [hr.1]
  exact hlinked.chain _ _ hr.2

theorem reads_chain {e : Expr} (hchain : e.IsChain) (h : e.IsPhrase) (hlength : e.print.length ≤ n) :
    ReadsBack (expressionWith x) e := by
  intro tail htail
  have hpostfix := reads_postfixExpr hx hnone hchain h hlength htail.endsWord htail.endsChain
    (.inl htail.afterSpace)
  obtain ⟨name, links, hheaded⟩ := headed e hchain h
  have hliteral := refuses_literal_name hheaded.named (hheaded.endsWord htail.endsWord)
  rw [← List.append_assoc, ← hheaded.print] at hliteral
  have hhead : (e.print ++ tail).head? ≠ some '[' := by
    rw [hheaded.print, List.append_assoc]
    exact head_name hheaded.named _ (by decide)
  exact (hliteral.orElse ((refuses_listLit hhead).orElse hpostfix)).rule .expression

omit hnone in
theorem reads_list {es : List Expr} (span : Span) (h : ArePhrases es)
    (hlength : (Expr.list es span).print.length ≤ n) (hclosing : ∀ cs, x.Refuses (']' :: cs)) :
    ReadsBack (expressionWith x) (.list es span) := by
  intro tail _
  simp only [Expr.print, List.length_append, List.length_cons] at hlength
  have hitem : ∀ e ∈ es, ItemReads x Expr.print (fun e r => Draft.Rel Expr.Like (.ok e) r.1)
      (']' :: tail) e := by
    intro e he
    have hphrase := arePhrases_iff.mp h e he
    have hle := length_le_commaSeparated (printAll_eq_map es ▸ List.mem_map_of_mem he)
    exact itemReads_print (hx e hphrase (by omega)) hphrase (.cons (by simp) tail)
  have hitems := reads_items hitem (hclosing tail) (afterSpace_cons (by decide) tail) (by simp)
  have hend := reads_symbol ']' tail
  rw [← afterSpace_cons (by decide) tail] at hend
  have hwhole := (reads_symbol '[' _).seqRight (hitems.seqLeft hend)
  have hstart : ∀ c, ('[' :: (commaSeparated (printAll es) ++ [']']) ++ tail).head? = some c →
      isIdentStart c = false := by
    rintro _ ⟨⟩
    rfl
  obtain ⟨hwordless, hboolean⟩ := refuses_words hstart
  have hliteral : literal.Refuses ('[' :: (commaSeparated (printAll es) ++ [']']) ++ tail) :=
    hwordless.orElse_refuses (hboolean.orElse_refuses
      ((refuses_token (scanNumber_of_head (by simp) (by rintro _ ⟨⟩; rfl))).map.orElse_refuses
        (refuses_token (scanString_of_head (by simp) (by simp))).map))
  rw [Expr.print]
  refine (hliteral.orElse (Reads.orElse ?_)).rule .expression
  rw [printAll_eq_map, List.cons_append, List.append_assoc]
  refine (hwhole.rule .listLit).map fun r hr => ?_
  obtain ⟨fs, hfs, hlike⟩ := (like_collect_ok (List.forall₂_map_right_iff.mpr hr)).of_ok
  rw [hfs]
  exact .ok (.list hlike)

omit hx hnone in
/-- A constant stands for itself. -/
theorem readsBack_literal {e : Expr}
    (h : ∀ tail, Closes tail → literal.Reads (e.print ++ tail) (fun d => ∃ f, d = .ok f ∧ e.Like f) tail) :
    ReadsBack (expressionWith x) e := by
  intro tail htail
  refine ((h tail htail).imp fun d hd => ?_).orElse.rule .expression
  obtain ⟨f, rfl, hf⟩ := hd
  exact .ok hf

theorem reads_expressionWith {e : Expr} (h : e.IsPhrase) (hlength : e.print.length ≤ n)
    (hclosing : ∀ cs, x.Refuses (']' :: cs)) : ReadsBack (expressionWith x) e := by
  cases e with
  | none s =>
    exact readsBack_literal fun tail htail =>
      (reads_none htail.endsWord).imp fun d ⟨t, hd⟩ => ⟨_, hd, rfl⟩
  | bool b s =>
    exact readsBack_literal fun tail htail =>
      (reads_bool b htail.endsWord).imp fun d ⟨t, hd⟩ => ⟨_, hd, rfl⟩
  | int k s =>
    exact readsBack_literal fun tail htail =>
      (reads_int k htail.endsWord (htail.head (by decide))).imp fun d ⟨t, hd⟩ => ⟨_, hd, rfl⟩
  | str text s =>
    exact readsBack_literal fun tail _ =>
      (reads_str text.toList tail).imp fun d ⟨t, hd⟩ => ⟨_, hd, by rw [String.ofList_toList]; rfl⟩
  | float y s => exact h.elim
  | list es s => exact reads_list hx s h hlength hclosing
  | name id s => exact reads_chain hx hnone trivial h hlength
  | field base attr s => exact reads_chain hx hnone trivial h hlength
  | subscript base index s => exact reads_chain hx hnone trivial h hlength
  | call func args keywords s => exact reads_chain hx hnone trivial h hlength

end

theorem refuses_expression {c : Char} (hc : c = ')' ∨ c = ']') (depth : Nat) (cs : List Char) :
    (expression depth).Refuses (c :: cs) := by
  cases depth with
  | zero => exact fun _ => rfl
  | succ depth => exact refuses_closing hc cs

/-- Every expression of the language is read back from its written form. An expression is longer
than those within it, so its length bounds how deep they are nested. -/
theorem reads_expression (depth : Nat) (e : Expr) (h : e.IsPhrase) (hlength : e.print.length < depth) :
    ReadsBack (expression depth) e := by
  induction depth generalizing e with
  | zero => omega
  | succ depth ih =>
    exact reads_expressionWith ih (refuses_expression (.inl rfl) depth) h (by omega)
      (refuses_expression (.inr rfl) depth)

end TaskDialogue.Syntax
