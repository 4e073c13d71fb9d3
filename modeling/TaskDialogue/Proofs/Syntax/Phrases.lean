import TaskDialogue.Proofs.Syntax.Reading
import TaskDialogue.Proofs.Syntax.Quoted

/-!
# Phrases of the grammar

What the patterns of the grammar read where a name stands, and where a quoted text stands.
Each alternative that is tried before the right one refuses, by the first character or by
the word that it would have to be.
-/
namespace TaskDialogue.Syntax

open Pattern

/-- A word that may be the name of something. -/
structure IsName (word : List Char) : Prop where
  start : ∃ c rest, word = c :: rest ∧ isIdentStart c = true
  chars : ∀ c ∈ word, isIdentChar c = true
  free : ∀ w ∈ reserved, w.toList ≠ word

instance (word : List Char) : Decidable (IsName word) :=
  decidable_of_iff (word.head?.any isIdentStart = true ∧ word.all isIdentChar = true ∧
      reserved.all (·.toList != word) = true) <| by
    constructor
    · rintro ⟨hstart, hchars, hfree⟩
      obtain ⟨c, hc, hstart⟩ := (Option.any_eq_true _ _).mp hstart
      exact ⟨⟨c, word.tail, (List.cons_head?_tail hc).symm, hstart⟩, List.all_eq_true.mp hchars,
        by simpa using hfree⟩
    · intro h
      obtain ⟨c, rest, hword, hstart⟩ := h.start
      exact ⟨by simp [hword, hstart], List.all_eq_true.mpr h.chars, by simpa using h.free⟩

/-- A word ends before this text. -/
def EndsWord (tail : List Char) : Prop := ∀ c, tail.head? = some c → isIdentChar c = false

section

variable {word tail : List Char}

theorem takeWhile_word (hchars : ∀ c ∈ word, isIdentChar c = true) (htail : EndsWord tail) :
    (word ++ tail).takeWhile isIdentChar = word := by
  rw [List.takeWhile_append_of_pos hchars]
  cases tail with
  | nil => simp
  | cons c rest => simp [htail c rfl]

theorem dropWhile_word (hchars : ∀ c ∈ word, isIdentChar c = true) (htail : EndsWord tail) :
    (word ++ tail).dropWhile isIdentChar = tail := by
  rw [List.dropWhile_append_of_pos hchars]
  cases tail with
  | nil => simp
  | cons c rest => simp [htail c rfl]

theorem scanIdentifier_name (hword : IsName word) (htail : EndsWord tail) :
    scanIdentifier (word ++ tail) = some (word, tail) := by
  have hreserved : reserved.any (·.toList = word) = false := by
    simpa using hword.free
  obtain ⟨c, rest, hcons, hstart⟩ := hword.start
  have hhead : word.head?.any isIdentStart = true := by simp [hcons, hstart]
  simp [scanIdentifier, takeWhile_word hword.chars htail, dropWhile_word hword.chars htail,
    hreserved, hhead]

/-- A name is none of the reserved words. -/
theorem scanWord_name (hword : IsName word) (htail : EndsWord tail) {w : String}
    (hw : w ∈ reserved) : scanWord w (word ++ tail) = none := by
  simp [scanWord, takeWhile_word hword.chars htail, Ne.symm (hword.free w hw)]

theorem scanNumber_of_head {cs : List Char} (hminus : cs.head? ≠ some '-')
    (hdigit : ∀ c, cs.head? = some c → c.isDigit = false) : scanNumber cs = none := by
  cases cs with
  | nil => rfl
  | cons c rest =>
    have hc : c ≠ '-' := by simpa using hminus
    have hd := hdigit c rfl
    simp [scanNumber, hc, hd]

theorem scanString_of_head {cs : List Char} (hdouble : cs.head? ≠ some '"')
    (hsingle : cs.head? ≠ some '\'') : scanString cs = none := by
  cases cs with
  | nil => rfl
  | cons c rest =>
    have hd : c ≠ '"' := by simpa using hdouble
    have hs : c ≠ '\'' := by simpa using hsingle
    simp [scanString, hd, hs]

/-- The first character of a name is a letter or an underscore. -/
theorem ne_of_isIdentStart {c d : Char} (h : isIdentStart c = true) (hd : isIdentStart d = false) :
    c ≠ d := by
  rintro rfl
  simp [h] at hd

theorem isDigit_of_isIdentStart {c : Char} (h : isIdentStart c = true) : c.isDigit = false := by
  refine Bool.eq_false_iff.mpr fun hdigit => ?_
  have hle : c.toNat ≤ '9'.toNat := (Char.isDigit_iff_toNat.mp hdigit).2
  obtain h | h : c.isAlpha = true ∨ (c == '_') = true := (Bool.or_eq_true _ _).mp h
  · obtain h | h : c.isUpper = true ∨ c.isLower = true := (Bool.or_eq_true _ _).mp h
    · have hbounds : 'A'.val ≤ c.val ∧ c.val ≤ 'Z'.val := of_decide_eq_true h
      exact absurd (Nat.le_trans (UInt32.le_iff_toNat_le.mp hbounds.1) hle) (by decide)
    · have hbound := of_decide_eq_true ((Bool.and_eq_true _ _).mp h).1
      exact absurd (Nat.le_trans (UInt32.le_iff_toNat_le.mp hbound) hle) (by decide)
  · rw [beq_iff_eq.mp h] at hle
    exact absurd hle (by decide)

theorem head_name (hword : IsName word) (tail : List Char) {d : Char} (hd : isIdentStart d = false) :
    (word ++ tail).head? ≠ some d := by
  obtain ⟨c, rest, rfl, hstart⟩ := hword.start
  simpa using ne_of_isIdentStart hstart hd

/-- No blanks stand before a name. -/
theorem afterSpace_name (hword : IsName word) (tail : List Char) : afterSpace (word ++ tail) = word ++ tail := by
  obtain ⟨c, rest, rfl, hstart⟩ := hword.start
  have hspace : Cursor.isSpace c = false := by
    simp only [Cursor.isSpace, Bool.or_eq_false_iff, beq_eq_false_iff_ne]
    exact ⟨⟨ne_of_isIdentStart hstart (by decide), ne_of_isIdentStart hstart (by decide)⟩,
      ne_of_isIdentStart hstart (by decide)⟩
  simp [afterSpace, hspace]

/-- A name is no literal. -/
theorem refuses_literal_name (hword : IsName word) (htail : EndsWord tail) :
    literal.Refuses (word ++ tail) := by
  have hnone := scanWord_name hword htail (w := "None") (by decide)
  have hboolean : scanBoolean (word ++ tail) = none := by
    simp [scanBoolean, scanWord_name hword htail (w := "True") (by decide),
      scanWord_name hword htail (w := "False") (by decide),
      scanWord_name hword htail (w := "true") (by decide),
      scanWord_name hword htail (w := "false") (by decide)]
  have hnumber : scanNumber (word ++ tail) = none := by
    refine scanNumber_of_head (head_name hword _ (by decide)) fun c hc => ?_
    obtain ⟨d, rest, rfl, hstart⟩ := hword.start
    obtain rfl : d = c := by simpa using hc
    exact isDigit_of_isIdentStart hstart
  have hstring : scanString (word ++ tail) = none :=
    scanString_of_head (head_name hword _ (by decide)) (head_name hword _ (by decide))
  exact (refuses_token hnone).map.orElse_refuses ((refuses_token hboolean).map.orElse_refuses
    ((refuses_token hnumber).map.orElse_refuses (refuses_token hstring).map))

end

/-! ### Names -/

section

variable {word tail : List Char} {e : Pattern (Draft Expr × Span)}

theorem reads_identifier (hword : IsName word) (htail : EndsWord tail) :
    identifier.Reads (word ++ tail) (fun r => r.1 = String.ofList word) tail :=
  (reads_token (scanIdentifier_name hword htail)).map fun r hr => by simp [hr]

theorem refuses_identifier {cs : List Char} (h : ∀ c, cs.head? = some c → isIdentChar c = false) :
    identifier.Refuses cs := by
  have hword : cs.takeWhile isIdentChar = [] := by
    cases cs with
    | nil => rfl
    | cons c rest => simp [h c rfl]
  exact (refuses_token (by simp [scanIdentifier, hword])).map

/-- Nothing can be attached to an expression before this text. -/
def EndsChain (tail : List Char) : Prop :=
  (afterSpace tail).head? ≠ some '(' ∧ (afterSpace tail).head? ≠ some '.' ∧
    (afterSpace tail).head? ≠ some '['

/-- What may be attached to an expression: a call, an attribute or an index. -/
def suffix (e : Pattern (Draft Expr × Span)) : Pattern (Suffix × Span) :=
  (callSuffix e).orElse (attrAccess.orElse (indexAccess e))

theorem refuses_suffix (htail : EndsChain tail) : (suffix e).Refuses (afterSpace tail) := by
  obtain ⟨hcall, hattr, hindex⟩ := htail
  exact ((refuses_symbol hcall).seqRight.rule _).map.orElse_refuses
    (((refuses_symbol hattr).seqRight.rule _).map.orElse_refuses
      ((refuses_symbol hindex).seqRight.rule _).map)

theorem reads_postfix_name (hword : IsName word) (htail : EndsWord tail) (hend : EndsChain tail) :
    (postfixExpr e).Reads (word ++ tail)
      (fun d => ∃ span, d = .ok (.name (String.ofList word) span)) (afterSpace tail) := by
  have hchain := (reads_identifier hword htail).seq (refuses_suffix (e := e) hend).many
  refine (hchain.rule .postfixExpr).map fun r hr => ?_
  obtain ⟨hname, hnone⟩ := hr
  exact ⟨_, by rw [hnone, hname]; rfl⟩

theorem refuses_listLit {cs : List Char} (h : cs.head? ≠ some '[') : (listLit e).Refuses cs :=
  ((refuses_symbol h).seqRight.rule _).map

theorem reads_expression_name (hword : IsName word) (htail : EndsWord tail)
    (hend : EndsChain tail) :
    (expressionWith e).Reads (word ++ tail)
      (fun r => ∃ span, r.1 = .ok (.name (String.ofList word) span)) (afterSpace tail) := by
  have hlist := refuses_listLit (e := e) (head_name hword tail (d := '[') (by decide))
  exact ((refuses_literal_name hword htail).orElse
    (hlist.orElse (reads_postfix_name hword htail hend))).rule .expression

/-! ### Quoted text -/

variable {text : List Char}

theorem scanWord_quote (w : String) (hw : w.toList ≠ []) (cs : List Char) :
    scanWord w ('"' :: cs) = none := by
  simp [scanWord, isIdentChar, Ne.symm hw]

/-- What starts with a quote is no literal of the other kinds. -/
theorem refuses_unquoted (cs : List Char) :
    noneLit.Refuses ('"' :: cs) ∧ booleanLit.Refuses ('"' :: cs) ∧
      numberLit.Refuses ('"' :: cs) := by
  have hboolean : scanBoolean ('"' :: cs) = none := by
    simp [scanBoolean, scanWord_quote "True" (by decide) cs,
      scanWord_quote "False" (by decide) cs, scanWord_quote "true" (by decide) cs,
      scanWord_quote "false" (by decide) cs]
  have hnumber : scanNumber ('"' :: cs) = none := scanNumber_of_head (by simp) (by simp)
  exact ⟨(refuses_token (scanWord_quote "None" (by decide) cs)).map, (refuses_token hboolean).map,
    (refuses_token hnumber).map⟩

/-- An escaped text between quotes is read as the text. -/
theorem reads_expression_text (htext : ∀ c ∈ text, ¬IsLineEnd c) (rest : List Char) :
    (expressionWith e).Reads ('"' :: (escape text ++ '"' :: rest))
      (fun r => ∃ span, r.1 = .ok (.str (String.ofList text) span)) rest := by
  obtain ⟨hnone, hboolean, hnumber⟩ := refuses_unquoted (escape text ++ '"' :: rest)
  have hstring : stringLit.Reads ('"' :: (escape text ++ '"' :: rest))
      (fun d => ∃ span, d = .ok (.str (String.ofList text) span)) rest := by
    refine (reads_token (scanString_escape htext rest)).map fun r hr => ⟨r.2, ?_⟩
    simp [hr]
  exact (hnone.orElse (hboolean.orElse (hnumber.orElse hstring))).orElse.rule .expression

/-- A text whose string is not closed starts no expression. -/
theorem refuses_expression_unclosed {cs : List Char} (h : scanString ('"' :: cs) = none) :
    (expressionWith e).Refuses ('"' :: cs) := by
  obtain ⟨hnone, hboolean, hnumber⟩ := refuses_unquoted cs
  have hstring : stringLit.Refuses ('"' :: cs) := (refuses_token h).map
  have hliteral : literal.Refuses ('"' :: cs) :=
    hnone.orElse_refuses (hboolean.orElse_refuses (hnumber.orElse_refuses hstring))
  exact (hliteral.orElse_refuses ((refuses_listLit (by simp)).orElse_refuses
    ((refuses_identifier (by simp [isIdentChar])).seq.rule _).map)).rule .expression

/-- A quote starts no name, so what starts with it is no argument by name. -/
theorem refuses_keywordArg_quote (cs : List Char) : (keywordArg e).Refuses ('"' :: cs) :=
  ((refuses_identifier (by simp [isIdentChar])).seq.rule _).map

/-! ### Statements and turns -/

variable {cs later : List Char}

theorem refuses_tupleOf {α : Type} {item : Pattern α} {P : α → Prop}
    (h : item.Reads cs P later) (hcomma : (afterSpace later).head? ≠ some ',') :
    (tupleOf item).Refuses cs := by
  have hmore : ((symbol ',').seqRight item).Refuses (afterSpace later) :=
    (refuses_symbol hcomma).seqRight
  dsimp only [tupleOf]
  exact (h.seq_refuses (hmore.seq.map.orElse_refuses (refuses_symbol hcomma).map)).map

theorem reads_statement_of_refuses {P : Draft Expr → Prop} (htuple : (tupleAssign e).Refuses cs)
    (hassign : (assign e).Refuses cs) (hvalue : e.Reads cs (fun r => P r.1) later) :
    (statement e).Reads cs
      (fun d => ∃ v span, P v ∧ d = (do let value ← v; exprStmt value span)) later := by
  have hexpr : (exprStatement e).Reads cs
      (fun d => ∃ v span, P v ∧ d = (do let value ← v; exprStmt value span)) later :=
    (hvalue.rule .exprStmt).map fun r hr => ⟨r.1.1, r.2, hr, rfl⟩
  exact ((htuple.orElse (hassign.orElse hexpr)).rule .statement).map fun r hr => hr

/-- A single target is no tuple. -/
theorem refuses_tupleAssign {Q : Draft Expr → Prop} (htarget : (postfixExpr e).Reads cs Q later)
    (hcomma : (afterSpace later).head? ≠ some ',') : (tupleAssign e).Refuses cs := by
  have htargets : (targetList e).Refuses cs := ((refuses_tupleOf htarget hcomma).rule _).map
  exact (htargets.seq.rule _).map

/-- An expression that is not assigned to is a statement. -/
theorem reads_statement {P Q : Draft Expr → Prop} (htarget : (postfixExpr e).Reads cs Q later)
    (hcomma : (afterSpace later).head? ≠ some ',') (hequals : (afterSpace later).head? ≠ some '=')
    (hvalue : e.Reads cs (fun r => P r.1) later) :
    (statement e).Reads cs
      (fun d => ∃ v span, P v ∧ d = (do let value ← v; exprStmt value span)) later := by
  have hassign : (assign e).Refuses cs :=
    ((htarget.seq_refuses (refuses_symbol hequals).seqRight).rule _).map
  exact reads_statement_of_refuses (refuses_tupleAssign htarget hcomma) hassign hvalue

/-- What no chain starts with is not assigned to. -/
theorem reads_statement_plain {P : Draft Expr → Prop} (htarget : (postfixExpr e).Refuses cs)
    (hvalue : e.Reads cs (fun r => P r.1) later) :
    (statement e).Reads cs
      (fun d => ∃ v span, P v ∧ d = (do let value ← v; exprStmt value span)) later := by
  have hitems : (tupleOf (postfixExpr e)).Refuses cs := by
    dsimp only [tupleOf]
    exact htarget.seq.map
  have htargets : (targetList e).Refuses cs := (hitems.rule _).map
  exact reads_statement_of_refuses (htargets.seq.rule _).map (htarget.seq.rule _).map hvalue

theorem refuses_separator (hsemicolon : cs.head? ≠ some ';') (hline : cs.head? ≠ some '\n') :
    separator.Refuses cs :=
  (refuses_symbol hsemicolon).orElse_refuses (refuses_symbol hline)

/-- A statement that no separator follows is the only one. -/
theorem reads_statements {P : Draft Stmt → Prop} (h : (statement e).Reads cs P later)
    (hspace : afterSpace later = later) (hend : separator.Refuses later) :
    (statements e).Reads cs (fun ds => ∃ d, ds = [d] ∧ P d) later := by
  have hmany : separator.many.Reads (afterSpace later) (· = []) later := by
    rw [hspace]
    exact hend.many
  have hrest : (((separator.seq separator.many).seqRight (statement e)).many.seqLeft
      separator.many).Reads (afterSpace later) (· = []) later := by
    rw [hspace]
    exact hend.seq.seqRight.many.seqLeft hmany
  dsimp only [statements]
  refine (h.seq hrest).map fun r hr => ⟨r.1, ?_, hr.1⟩
  rw [hr.2]

/-- What precedes the statements of a text: no separators, and no blanks. -/
theorem reads_turn_start (hspace : afterSpace cs = cs) (hseparator : separator.Refuses cs) :
    nothing.Reads cs (fun _ => True) cs ∧ separator.many.Reads (afterSpace cs) (· = []) cs := by
  refine ⟨fun offset => ⟨(), offset, rfl, trivial⟩, ?_⟩
  rw [hspace]
  exact hseparator.many

/-- A single statement is a whole text when nothing follows it. -/
theorem reads_turn {P : Draft Stmt → Prop} (hspace : afterSpace cs = cs)
    (hseparator : separator.Refuses cs) (h : (statement e).Reads cs P []) :
    (turn e).Reads cs (fun ds => ∃ d, ds = [d] ∧ P d) [] := by
  obtain ⟨hnothing, hmany⟩ := reads_turn_start hspace hseparator
  have hstatements := (reads_statements h rfl (refuses_separator (by simp) (by simp))).optional
  have hwhole := hstatements.seqLeft (r := endOfText) reads_endOfText
  rw [← hspace] at hwhole
  have hbody := hmany.seqRight hwhole
  exact ((hnothing.seqRight hbody).rule .turn).map fun r ⟨ds, hr, d, hds, hd⟩ =>
    ⟨d, by simp only [hr, hds, Option.getD_some], hd⟩

/-- A text is refused when something else follows its first statement. -/
theorem refuses_turn {P : Draft Stmt → Prop} {c : Char} {rest : List Char}
    (hspace : afterSpace cs = cs) (hseparator : separator.Refuses cs)
    (h : (statement e).Reads cs P (c :: rest)) (hblank : Cursor.isSpace c = false)
    (hsemicolon : c ≠ ';') (hline : c ≠ '\n') : (turn e).Refuses cs := by
  obtain ⟨hnothing, hmany⟩ := reads_turn_start hspace hseparator
  have hlater : afterSpace (c :: rest) = c :: rest := by simp [afterSpace, hblank]
  have hstatements := (reads_statements h hlater
    (refuses_separator (by simpa using hsemicolon) (by simpa using hline))).optional
  have hend : endOfText.Refuses (afterSpace (c :: rest)) := by
    rw [hlater]
    exact refuses_endOfText
  have hwhole := hstatements.seqLeft_refuses hend
  rw [← hspace] at hwhole
  exact ((hnothing.seqRight_refuses (hmany.seqRight_refuses hwhole)).rule _).map

theorem refuses_separator_name {word : List Char} (hword : IsName word) (tail : List Char) :
    separator.Refuses (word ++ tail) :=
  refuses_separator (head_name hword _ (by decide)) (head_name hword _ (by decide))

/-- A text of one character or more is read with expressions within expressions. -/
theorem expression_length (hcs : cs ≠ []) :
    ∃ e, expression (cs.length + 1) = expressionWith (expressionWith e) := by
  cases cs with
  | nil => exact absurd rfl hcs
  | cons c rest => exact ⟨expression rest.length, rfl⟩

/-- What a text is read as is the program that it holds. -/
theorem parse_of_turn {P : List (Draft Stmt) → Prop}
    (h : (turn (expression (cs.length + 1))).Reads cs P later) :
    ∃ ds, P ds ∧ Program.parse (String.ofList cs) = (collect ds).map (⟨·⟩) := by
  obtain ⟨ds, after, hread, hds⟩ := h 0
  refine ⟨ds, hds, ?_⟩
  delta Program.parse
  simp only [String.toList_ofList, hread]

theorem parse_of_reads {P : List (Draft Stmt) → Prop} (hcs : cs ≠ [])
    (h : ∀ e, (turn (expressionWith (expressionWith e))).Reads cs P later) :
    ∃ ds, P ds ∧ Program.parse (String.ofList cs) = (collect ds).map (⟨·⟩) := by
  obtain ⟨e, he⟩ := expression_length hcs
  exact parse_of_turn (he ▸ h e)

theorem parse_of_refuses (hcs : cs ≠ [])
    (h : ∀ e, (turn (expressionWith (expressionWith e))).Refuses cs) :
    ∃ report, Program.parse (String.ofList cs) = .error (.mismatch report) := by
  obtain ⟨e, he⟩ := expression_length hcs
  delta Program.parse
  simp only [String.toList_ofList, he, h e 0]
  exact ⟨_, rfl⟩

end

end TaskDialogue.Syntax
