import TaskDialogue.Proofs.Syntax.Phrases
import TaskDialogue.Proofs.Store.Variables

/-!
# The text of a hint

The turn that says a recommendation is a call of `hint` with the quoted words and the name of
a variable. It is read back as this call, unless a line ends within the words: then the string
is not closed, and the text leaves the grammar at its parenthesis.
-/
namespace TaskDialogue

open Syntax Pattern

/-- The program that a hint is read as, up to the ranges of its nodes. -/
def IsHint (text : String) (var : String) (p : Program) : Prop :=
  ∃ s₁ s₂ s₃ s₄ s₅ s₆, p.body =
    [.expr (.call (.name "hint" s₁) [.str text s₂] [⟨"ref", .name var s₃, s₄⟩] s₅) s₆]

namespace Syntax

theorem isName_hint : IsName "hint".toList where
  start := ⟨'h', "int".toList, rfl, by decide⟩
  chars := List.all_eq_true.mp rfl
  free := by decide

theorem isName_ref : IsName "ref".toList where
  start := ⟨'r', "ef".toList, rfl, by decide⟩
  chars := List.all_eq_true.mp rfl
  free := by decide

/-- The name of a variable is a name. -/
theorem isName_varName (index : Nat) : IsName (varName index).toList where
  start := ⟨'x', Nat.toDigits 10 index, toList_varName index, by decide⟩
  chars := by
    rw [toList_varName]
    refine List.forall_mem_cons.mpr ⟨by decide, fun c hc => ?_⟩
    have hdigit := Nat.isDigit_of_mem_toDigits (by decide) (by decide) hc
    simp [isIdentChar, Char.isAlphanum, hdigit]
  free := by
    rw [toList_varName]
    simp [reserved]

variable {e : Pattern (Draft Expr × Span)} {text : List Char}

/-- The argument by name, and the parenthesis after it. -/
def refArgument (index : Nat) : List Char :=
  "ref".toList ++ '=' :: ((varName index).toList ++ [')'])

theorem reads_refArgument (index : Nat) :
    (argument (expressionWith e)).Reads (refArgument index)
      (fun a => ∃ s t, a = .keyword "ref" (.ok (.name (varName index) s)) t) [')'] := by
  have hend : EndsWord [')'] := by simp [EndsWord, isIdentChar]
  have hname := reads_expression_name (e := e) (isName_varName index) hend
    (by simp [EndsChain, afterSpace, Cursor.isSpace])
  rw [← afterSpace_name (isName_varName index) [')']] at hname
  have hequals := (reads_symbol '=' _).seqRight hname
  have hequalsEnd : EndsWord ('=' :: ((varName index).toList ++ [')'])) := by
    simp [EndsWord, isIdentChar]
  have hword := reads_identifier isName_ref hequalsEnd
  have hpair := (hword.seq (r := (symbol '=').seqRight (expressionWith e)) hequals).rule .keywordArg
  refine (hpair.map fun r hr => ?_).orElse
  obtain ⟨hid, span, hvalue⟩ := hr
  refine ⟨span, r.2, ?_⟩
  simp only [hid, hvalue, String.ofList_toList]

/-- The words of a hint, in quotes, and the argument by name after them. -/
def hintArguments (text : List Char) (index : Nat) : List Char :=
  '"' :: (escape text ++ '"' :: ',' :: ' ' :: refArgument index)

/-- What the arguments of a hint are read as. -/
def IsHintArguments (text : List Char) (index : Nat) (args : List Argument) : Prop :=
  ∃ s₁ s₂ s₃ s₄, args = [.positional (.ok (.str (String.ofList text) s₁)) s₂,
    .keyword "ref" (.ok (.name (varName index) s₃)) s₄]

theorem reads_hintArguments (htext : ∀ c ∈ text, ¬IsLineEnd c) (index : Nat) :
    (commaList (argument (expressionWith e))).Reads (hintArguments text index)
      (IsHintArguments text index) [')'] := by
  have hfirst := (refuses_keywordArg_quote (e := expressionWith e) _).orElse
    ((reads_expression_text (e := e) htext (',' :: ' ' :: refArgument index)).map
      (f := fun r => Argument.positional r.1 r.2)
      (R := fun a => ∃ s t, a = .positional (.ok (.str (String.ofList text) s)) t)
      fun r ⟨span, hr⟩ => ⟨span, r.2, by rw [hr]⟩)
  have hsecond := (reads_symbol ',' (' ' :: refArgument index)).seqRight
    (reads_refArgument (e := e) index)
  have hrest := (hsecond.many_one (refuses_symbol (by decide)).seqRight).seqLeft
    (r := (symbol ',').optional) (refuses_symbol (by decide)).optional
  refine (hfirst.seq hrest).map fun r hr => ?_
  obtain ⟨⟨s₁, s₂, h₁⟩, a, h₂, s₃, s₄, rfl⟩ := hr
  exact ⟨s₁, s₂, s₃, s₄, by rw [h₁, h₂]⟩

/-- The call of a hint. -/
def hintText (text : List Char) (index : Nat) : List Char :=
  "hint".toList ++ '(' :: hintArguments text index

def IsHintCall (text : List Char) (index : Nat) (d : Draft Expr) : Prop :=
  ∃ s₁ s₂ s₃ s₄ s₅, d = .ok (.call (.name "hint" s₁) [.str (String.ofList text) s₂]
    [⟨"ref", .name (varName index) s₃, s₄⟩] s₅)

/-- The arguments of a hint, put together. -/
theorem chain_hint {index : Nat} {args : List Argument} (h : IsHintArguments text index args) (s t : Span) :
    IsHintCall text index (chain (.name "hint" s) [(.call args, t)]) := by
  obtain ⟨s₁, s₂, s₃, s₄, rfl⟩ := h
  exact ⟨s, s₁, s₃, s₄, _, rfl⟩

/-- Nothing of a name goes on at a parenthesis. -/
theorem endsWord_paren (cs : List Char) : EndsWord ('(' :: cs) := by
  simp [EndsWord, isIdentChar]

theorem reads_postfix_hint (htext : ∀ c ∈ text, ¬IsLineEnd c) (index : Nat) :
    (postfixExpr (expressionWith e)).Reads (hintText text index) (IsHintCall text index) [] := by
  have harguments := (reads_hintArguments (e := e) htext index).optional.seqLeft
    (reads_symbol ')' [])
  have hcall := (((reads_symbol '(' (hintArguments text index)).seqRight harguments).rule
    .callSuffix).map (f := fun r => (Suffix.call (r.1.getD []), r.2))
    (R := fun s => ∃ args, s.1 = .call args ∧ IsHintArguments text index args)
    fun r ⟨args, hr, hargs⟩ => ⟨args, by rw [hr]; rfl, hargs⟩
  have hnone : (suffix (expressionWith e)).Refuses (afterSpace []) :=
    refuses_suffix (by simp [EndsChain, afterSpace])
  have hsuffixes := (hcall.orElse (q := attrAccess.orElse (indexAccess (expressionWith e)))).many_one
    hnone
  have hword := reads_identifier isName_hint (endsWord_paren (hintArguments text index))
  refine ((hword.seq hsuffixes).rule .postfixExpr).map fun r hr => ?_
  obtain ⟨hid, ⟨suffix, span⟩, hone, args, rfl, hargs⟩ := hr
  simp only [hid, hone]
  exact chain_hint hargs _ _

/-- The word of a hint, as a name with nothing attached to it. -/
theorem reads_postfix_word {cs : List Char} (hcall : (callSuffix e).Refuses ('(' :: cs)) :
    (postfixExpr e).Reads ("hint".toList ++ '(' :: cs)
      (fun d => ∃ span, d = .ok (.name "hint" span)) ('(' :: cs) := by
  have hsuffix : (suffix e).Refuses ('(' :: cs) :=
    hcall.orElse_refuses (((refuses_symbol (by simp)).seqRight.rule _).map.orElse_refuses
      ((refuses_symbol (by simp)).seqRight.rule _).map)
  have hword := reads_identifier isName_hint (endsWord_paren cs)
  refine ((hword.seq hsuffix.many).rule .postfixExpr).map fun r hr => ?_
  obtain ⟨hid, hnone⟩ := hr
  simp only [hid, hnone]
  exact ⟨_, rfl⟩

theorem reads_expression_word {rest later : List Char} {P : Draft Expr → Prop}
    (h : (postfixExpr e).Reads ("hint".toList ++ '(' :: rest) P later) :
    (expressionWith e).Reads ("hint".toList ++ '(' :: rest) (fun r => P r.1) later := by
  have hliteral := refuses_literal_name isName_hint (endsWord_paren rest)
  have hlist := refuses_listLit (e := e)
    (head_name isName_hint ('(' :: rest) (d := '[') (by decide))
  exact (hliteral.orElse (hlist.orElse h)).rule .expression

/-- A hint is a whole text. -/
theorem reads_turn_hint (htext : ∀ c ∈ text, ¬IsLineEnd c) (index : Nat) :
    (turn (expressionWith (expressionWith e))).Reads (hintText text index)
      (fun ds => ∃ d v span, ds = [d] ∧ IsHintCall text index v ∧
        d = (do let value ← v; exprStmt value span)) [] := by
  have htarget := reads_postfix_hint (e := expressionWith e) htext index
  have hvalue := reads_expression_word (reads_postfix_hint (e := e) htext index)
  have hstatement := reads_statement htarget (by simp [afterSpace]) (by simp [afterSpace]) hvalue
  refine (reads_turn (afterSpace_name isName_hint _) (refuses_separator_name isName_hint _)
    hstatement).imp fun ds hds => ?_
  obtain ⟨d, hd, v, span, hv, hstmt⟩ := hds
  exact ⟨d, v, span, hd, hv, hstmt⟩

/-- A hint whose string is not closed is no text of the grammar. -/
theorem refuses_turn_hint {cs : List Char} (h : scanString ('"' :: cs) = none) :
    (turn (expressionWith (expressionWith e))).Refuses ("hint".toList ++ '(' :: '"' :: cs) := by
  have hcall : ∀ e : Pattern (Draft Expr × Span),
      (callSuffix (expressionWith e)).Refuses ('(' :: '"' :: cs) := by
    intro e
    have hargument : (argument (expressionWith e)).Refuses ('"' :: cs) :=
      (refuses_keywordArg_quote cs).orElse_refuses (refuses_expression_unclosed h).map
    have hlist : (commaList (argument (expressionWith e))).Refuses ('"' :: cs) :=
      hargument.seq.map
    have hclose : (symbol ')').Refuses (afterSpace ('"' :: cs)) :=
      refuses_symbol (by simp [afterSpace, Cursor.isSpace])
    have harguments := hlist.optional.seqLeft_refuses hclose
    exact (((reads_symbol '(' ('"' :: cs)).seqRight_refuses harguments).rule _).map
  have htarget := reads_postfix_word (hcall (expressionWith e))
  have hvalue := reads_expression_word (reads_postfix_word (hcall e))
  have hstatement := reads_statement (P := fun d => ∃ span, d = .ok (.name "hint" span)) htarget
    (by simp [afterSpace, Cursor.isSpace]) (by simp [afterSpace, Cursor.isSpace]) hvalue
  exact refuses_turn (afterSpace_name isName_hint _) (refuses_separator_name isName_hint _) hstatement
    (by decide) (by decide) (by decide)

end Syntax

/-- The text of a hint is read back as the call that it is. -/
theorem parse_hintText {text : List Char} (index : Nat) (h : ∀ c ∈ text, ¬IsLineEnd c) :
    ∃ p, Program.parse (String.ofList (hintText text index)) = .ok p ∧
      IsHint (String.ofList text) (varName index) p := by
  obtain ⟨ds, ⟨d, v, span, rfl, ⟨s₁, s₂, s₃, s₄, s₅, rfl⟩, rfl⟩, hparse⟩ :=
    parse_of_reads (List.cons_ne_nil _ _) fun _ => reads_turn_hint h index
  exact ⟨_, hparse, s₁, s₂, s₃, s₄, s₅, span, rfl⟩

/-- A hint in which a line ends within the words, or whose words are cut off, is no program. -/
theorem parse_unclosed {text tail : List Char} (h : ∀ c ∈ text, ¬IsLineEnd c)
    (htail : ∀ c, tail.head? = some c → IsLineEnd c) :
    ∃ report, Program.parse (String.ofList ("hint".toList ++ '(' :: '"' :: (escape text ++ tail))) =
      .error (.mismatch report) :=
  parse_of_refuses (List.cons_ne_nil _ _) fun _ => refuses_turn_hint (scanString_unclosed h htail)

end TaskDialogue
