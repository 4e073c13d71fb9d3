import TaskDialogue.Proofs.Syntax.Padding

/-!
# Words before blanks

The scanners of the grammar cut the same word off a text with and without blanks after it: no blank
belongs to a name or a number, and none closes a string. A string that is not closed is not read
in either text, although the blanks would be part of it.
-/
namespace TaskDialogue.Syntax

/-! ### Names and reserved words -/

theorem scansAlike_word (cond : List Char → Bool) :
    ScansAlike fun cs => if cond (cs.takeWhile isIdentChar) then
      some (cs.takeWhile isIdentChar, cs.dropWhile isIdentChar) else none := by
  intro cs ds hpad
  have htake := hpad.takeWhile fun _ hc => hc.isIdentChar
  dsimp only
  rw [htake]
  split
  · exact .inr ⟨_, _, _, rfl, rfl, hpad.dropWhile _, (List.dropWhile_sublist _).length_le,
      (List.dropWhile_sublist _).length_le⟩
  · exact .inl ⟨rfl, rfl⟩

theorem scansAlike_scanWord (w : String) : ScansAlike (scanWord w) := by
  have h := scansAlike_word fun word => decide (word = w.toList)
  simp only [decide_eq_true_eq] at h
  exact h

theorem scansAlike_scanIdentifier : ScansAlike scanIdentifier :=
  scansAlike_word fun word => word.head?.any isIdentStart && !reserved.any (·.toList = word)

theorem scansAlike_scanBoolean : ScansAlike scanBoolean := by
  suffices h : ∀ words : List String, ScansAlike fun cs => words.findSome? (scanWord · cs) from
    h ["True", "False", "true", "false"]
  intro words
  induction words with
  | nil => exact fun _ _ _ => .inl ⟨rfl, rfl⟩
  | cons w words ih =>
    intro cs ds hpad
    obtain ⟨hcs, hds⟩ | ⟨word, rest, rest', hcs, hds, hrest⟩ := scansAlike_scanWord w cs ds hpad
    · simp only [List.findSome?_cons, hcs, hds]
      exact ih cs ds hpad
    · simp only [List.findSome?_cons, hcs, hds]
      exact .inr ⟨word, rest, rest', rfl, rfl, hrest⟩

/-! ### Numbers -/

/-- What a part of a number takes off a text it also takes off the text with blanks after it. -/
def TakesAlike (take : List Char → List Char × List Char) : Prop :=
  ∀ cs ds, Padded cs ds → (take ds).1 = (take cs).1 ∧ Padded (take cs).2 (take ds).2 ∧
    (take cs).2.length ≤ cs.length ∧ (take ds).2.length ≤ ds.length

theorem head?_isDigit {cs ds : List Char} (h : Padded cs ds) :
    ds.head?.any Char.isDigit = cs.head?.any Char.isDigit := by
  cases cs with
  | nil =>
    cases ds with
    | nil => rfl
    | cons d ds => simpa using (h.of_nil d List.mem_cons_self).isDigit
  | cons c cs =>
    obtain ⟨ds, rfl, -⟩ := h.cons
    rfl

/-- Digits after a sign or a point, or nothing. -/
theorem takesAlike_digits {cs ds rest rest' : List Char} (hpad : Padded cs ds)
    (hrest : Padded rest rest') (hle : rest.length ≤ cs.length) (hle' : rest'.length ≤ ds.length)
    (taken : List Char) {whole whole' : List Char × List Char}
    (h : whole = if rest.head?.any Char.isDigit then
      (taken ++ rest.takeWhile Char.isDigit, rest.dropWhile Char.isDigit) else ([], cs))
    (h' : whole' = if rest'.head?.any Char.isDigit then
      (taken ++ rest'.takeWhile Char.isDigit, rest'.dropWhile Char.isDigit) else ([], ds)) :
    whole'.1 = whole.1 ∧ Padded whole.2 whole'.2 ∧ whole.2.length ≤ cs.length ∧
      whole'.2.length ≤ ds.length := by
  rw [head?_isDigit hrest, hrest.takeWhile fun _ hd => hd.isDigit] at h'
  rw [h, h']
  split
  · exact ⟨rfl, hrest.dropWhile _, (List.dropWhile_sublist _).length_le.trans hle,
      (List.dropWhile_sublist _).length_le.trans hle'⟩
  · exact ⟨rfl, hpad, le_rfl, le_rfl⟩

theorem scanFraction_of_head {cs : List Char} (h : cs.head? ≠ some '.') : scanFraction cs = ([], cs) := by
  cases cs with
  | nil => rfl
  | cons c cs =>
    have hne : c ≠ '.' := by simpa using h
    simp [scanFraction, hne]

theorem takesAlike_scanFraction : TakesAlike scanFraction := by
  intro cs ds hpad
  by_cases hhead : cs.head? = some '.'
  · obtain ⟨cs, rfl⟩ := List.head?_eq_some_iff.mp hhead
    obtain ⟨ds, rfl, hrest⟩ := hpad.cons
    exact takesAlike_digits hpad hrest (Nat.le_succ _) (Nat.le_succ _) ['.'] rfl rfl
  · have hds : ds.head? ≠ some '.' := fun h => hhead ((hpad.head (by decide)).mp h)
    rw [scanFraction_of_head hhead, scanFraction_of_head hds]
    exact ⟨rfl, hpad, le_rfl, le_rfl⟩

theorem scanExponent_of_head {cs : List Char} (h : cs.head? ≠ some 'e' ∧ cs.head? ≠ some 'E') :
    scanExponent cs = ([], cs) := by
  cases cs with
  | nil => rfl
  | cons c cs =>
    have hne : c ≠ 'e' ∧ c ≠ 'E' := by simpa using h
    simp [scanExponent, hne]

/-- An exponent without a sign. -/
theorem scanExponent_unsigned {e : Char} (he : e = 'e' ∨ e = 'E') {rest : List Char}
    (hplus : rest.head? ≠ some '+') (hminus : rest.head? ≠ some '-') :
    scanExponent (e :: rest) = if rest.head?.any Char.isDigit then
      ([e] ++ rest.takeWhile Char.isDigit, rest.dropWhile Char.isDigit) else ([], e :: rest) := by
  cases rest with
  | nil => obtain rfl | rfl := he <;> rfl
  | cons c rest =>
    have hne : c ≠ '+' ∧ c ≠ '-' := by simpa using And.intro hplus hminus
    obtain rfl | rfl := he <;> simp [scanExponent, hne]

theorem takesAlike_scanExponent : TakesAlike scanExponent := by
  intro cs ds hpad
  by_cases hhead : cs.head? = some 'e' ∨ cs.head? = some 'E'
  · obtain ⟨e, he, cs, rfl⟩ : ∃ e, (e = 'e' ∨ e = 'E') ∧ ∃ rest, cs = e :: rest := by
      obtain h | h := hhead
      · exact ⟨'e', .inl rfl, List.head?_eq_some_iff.mp h⟩
      · exact ⟨'E', .inr rfl, List.head?_eq_some_iff.mp h⟩
    obtain ⟨ds, rfl, hrest⟩ := hpad.cons
    by_cases hplus : cs.head? = some '+'
    · obtain ⟨cs, rfl⟩ := List.head?_eq_some_iff.mp hplus
      obtain ⟨ds, rfl, hdigits⟩ := hrest.cons
      refine takesAlike_digits hpad hdigits (Nat.le_add_right _ 2) (Nat.le_add_right _ 2) [e, '+'] ?_ ?_ <;>
        obtain rfl | rfl := he <;> rfl
    by_cases hminus : cs.head? = some '-'
    · obtain ⟨cs, rfl⟩ := List.head?_eq_some_iff.mp hminus
      obtain ⟨ds, rfl, hdigits⟩ := hrest.cons
      refine takesAlike_digits hpad hdigits (Nat.le_add_right _ 2) (Nat.le_add_right _ 2) [e, '-'] ?_ ?_ <;>
        obtain rfl | rfl := he <;> rfl
    · have hplus' : ds.head? ≠ some '+' := fun h => hplus ((hrest.head (by decide)).mp h)
      have hminus' : ds.head? ≠ some '-' := fun h => hminus ((hrest.head (by decide)).mp h)
      exact takesAlike_digits hpad hrest (Nat.le_succ _) (Nat.le_succ _) [e]
        (scanExponent_unsigned he hplus hminus) (scanExponent_unsigned he hplus' hminus')
  · obtain ⟨hlower, hupper⟩ := not_or.mp hhead
    have hlower' : ds.head? ≠ some 'e' := fun h => hlower ((hpad.head (by decide)).mp h)
    have hupper' : ds.head? ≠ some 'E' := fun h => hupper ((hpad.head (by decide)).mp h)
    rw [scanExponent_of_head ⟨hlower, hupper⟩, scanExponent_of_head ⟨hlower', hupper'⟩]
    exact ⟨rfl, hpad, le_rfl, le_rfl⟩

/-- A number without its sign. -/
def scanUnsigned (sign cs : List Char) : Option (List Char × List Char) :=
  if (cs.takeWhile Char.isDigit).isEmpty then none
  else
    let fraction := scanFraction (cs.dropWhile Char.isDigit)
    let exponent := scanExponent fraction.2
    some (sign ++ cs.takeWhile Char.isDigit ++ fraction.1 ++ exponent.1, exponent.2)

theorem scansAlike_scanUnsigned (sign : List Char) : ScansAlike (scanUnsigned sign) := by
  intro cs ds hpad
  have htake := hpad.takeWhile fun _ hc => hc.isDigit
  obtain ⟨hfraction, hrest, hle, hle'⟩ := takesAlike_scanFraction _ _ (hpad.dropWhile Char.isDigit)
  obtain ⟨hexponent, hlast, hshort, hshort'⟩ := takesAlike_scanExponent _ _ hrest
  have hdrop := (List.dropWhile_sublist (l := cs) Char.isDigit).length_le
  have hdrop' := (List.dropWhile_sublist (l := ds) Char.isDigit).length_le
  simp only [scanUnsigned, htake, hfraction, hexponent]
  split
  · exact .inl ⟨rfl, rfl⟩
  · exact .inr ⟨_, _, _, rfl, rfl, hlast, by omega, by omega⟩

theorem scanNumber_minus (rest : List Char) : scanNumber ('-' :: rest) = scanUnsigned ['-'] rest := rfl

theorem scanNumber_of_unsigned {cs : List Char} (h : cs.head? ≠ some '-') :
    scanNumber cs = scanUnsigned [] cs := by
  cases cs with
  | nil => rfl
  | cons c cs =>
    have hne : c ≠ '-' := by simpa using h
    simp [scanNumber, scanUnsigned, hne]

theorem scansAlike_scanNumber : ScansAlike scanNumber := by
  intro cs ds hpad
  by_cases hminus : cs.head? = some '-'
  · obtain ⟨cs, rfl⟩ := List.head?_eq_some_iff.mp hminus
    obtain ⟨ds, rfl, hrest⟩ := hpad.cons
    rw [scanNumber_minus, scanNumber_minus]
    obtain hnone | ⟨word, rest, rest', hcs, hds, hlast, hle, hle'⟩ :=
      scansAlike_scanUnsigned ['-'] cs ds hrest
    · exact .inl hnone
    · exact .inr ⟨word, rest, rest', hcs, hds, hlast, Nat.le_succ_of_le hle, Nat.le_succ_of_le hle'⟩
  · have hminus' : ds.head? ≠ some '-' := fun h => hminus ((hpad.head (by decide)).mp h)
    rw [scanNumber_of_unsigned hminus, scanNumber_of_unsigned hminus']
    exact scansAlike_scanUnsigned [] cs ds hpad

/-! ### Strings -/

/-- A quote that a string may start with. -/
def IsQuote (q : Char) : Prop := q = '"' ∨ q = '\''

theorem scanQuoted_stop {q c : Char} (hslash : c ≠ '\\')
    (hc : (c = q || c = '\n' || c = '\r') = true) (cs : List Char) :
    scanQuoted q (c :: cs) = ([], c :: cs) := by
  rw [scanQuoted, if_pos hc]
  all_goals simp [hslash]

/-- A character that neither escapes the next one nor ends a string is part of it. -/
theorem scanQuoted_cons {q c : Char} (hslash : c ≠ '\\')
    (hc : ¬(c = q || c = '\n' || c = '\r') = true) (cs : List Char) :
    scanQuoted q (c :: cs) = (c :: (scanQuoted q cs).1, (scanQuoted q cs).2) := by
  rw [scanQuoted, if_neg hc]
  all_goals simp [hslash]

theorem scanQuoted_escaped (q c : Char) (cs : List Char) : scanQuoted q ('\\' :: c :: cs) =
    ('\\' :: c :: (scanQuoted q cs).1, (scanQuoted q cs).2) := by
  simp [scanQuoted]

/-- No quote is found among blanks. -/
theorem scanQuoted_pad {q : Char} (hq : IsQuote q) {pad : List Char} (h : ∀ c ∈ pad, IsPad c) :
    (scanQuoted q pad).2.head? ≠ some q := by
  induction pad with
  | nil => simp [scanQuoted]
  | cons c pad ih =>
    obtain ⟨hc, hpad⟩ := List.forall_mem_cons.mp h
    have hslash : c ≠ '\\' := hc.ne (by decide)
    have hquote : c ≠ q := by
      obtain rfl | rfl := hq <;> exact hc.ne (by decide)
    by_cases hstop : (c = q || c = '\n' || c = '\r') = true
    · rw [scanQuoted_stop hslash hstop]
      simpa using hquote
    · rw [scanQuoted_cons hslash hstop]
      exact ih hpad

theorem ne_backslash {c : Char} {rest : List Char} (hlast : c = '\\' → rest = [] → False)
    (hescape : ∀ d ds, c = '\\' → rest = d :: ds → False) : c ≠ '\\' := by
  rintro rfl
  cases rest with
  | nil => exact hlast rfl rfl
  | cons d rest => exact hescape d rest rfl rfl

/-- The end of a string is found alike, or in neither text. -/
theorem scanQuoted_padded {q : Char} (hq : IsQuote q) {cs ds : List Char} (hpad : Padded cs ds) :
    (∃ body after after', scanQuoted q cs = (body, q :: after) ∧ scanQuoted q ds = (body, q :: after') ∧
      Padded after after' ∧ after.length < cs.length ∧ after'.length < ds.length) ∨
    ((scanQuoted q cs).2.head? ≠ some q ∧ (scanQuoted q ds).2.head? ≠ some q) := by
  have hslash : '\\' ≠ q := by
    obtain rfl | rfl := hq <;> decide
  induction cs using scanQuoted.induct q generalizing ds with
  | case1 => exact .inr ⟨by simp [scanQuoted], scanQuoted_pad hq hpad.of_nil⟩
  | case2 =>
    obtain ⟨ds, rfl, hrest⟩ := hpad.cons
    refine .inr ⟨by simpa [scanQuoted] using hslash, ?_⟩
    cases ds with
    | nil => simpa [scanQuoted] using hslash
    | cons d ds =>
      rw [scanQuoted_escaped]
      exact scanQuoted_pad hq fun c hc => hrest.of_nil c (List.mem_cons_of_mem d hc)
  | case3 c rest ih =>
    obtain ⟨_, rfl, htail⟩ := hpad.cons
    obtain ⟨ds, rfl, hrest⟩ := htail.cons
    rw [scanQuoted_escaped, scanQuoted_escaped]
    obtain ⟨body, after, after', hcs, hds, hafter, hlt, hlt'⟩ | hnone := ih hrest
    · exact .inl ⟨_, after, after', by rw [hcs], by rw [hds], hafter, by simp only [List.length_cons]; omega,
        by simp only [List.length_cons]; omega⟩
    · exact .inr hnone
  | case4 c rest hlast hescape hstop =>
    obtain ⟨ds, rfl, hrest⟩ := hpad.cons
    have hc := ne_backslash hlast hescape
    rw [scanQuoted_stop hc hstop, scanQuoted_stop hc hstop]
    by_cases hquote : c = q
    · subst hquote
      exact .inl ⟨[], rest, ds, rfl, rfl, hrest, Nat.lt_succ_self _, Nat.lt_succ_self _⟩
    · exact .inr ⟨by simpa using hquote, by simpa using hquote⟩
  | case5 c rest hlast hescape hstop ih =>
    obtain ⟨ds, rfl, hrest⟩ := hpad.cons
    have hc := ne_backslash hlast hescape
    rw [scanQuoted_cons hc hstop, scanQuoted_cons hc hstop]
    obtain ⟨body, after, after', hcs, hds, hafter, hlt, hlt'⟩ | hnone := ih hrest
    · exact .inl ⟨_, after, after', by rw [hcs], by rw [hds], hafter, by simp only [List.length_cons]; omega,
        by simp only [List.length_cons]; omega⟩
    · exact .inr hnone

/-- A text that starts with a quote holds a string when its closing quote is found. -/
theorem scanString_quoted {q : Char} (hq : IsQuote q) (cs : List Char) :
    scanString (q :: cs) = match scanQuoted q cs with
      | (body, c :: after) => if c = q then some (q :: body ++ [q], after) else none
      | (_, []) => none := by
  simp only [scanString, Bool.or_eq_true, decide_eq_true_eq]
  exact if_pos hq

theorem scanString_none {q : Char} (hq : IsQuote q) {cs : List Char}
    (h : (scanQuoted q cs).2.head? ≠ some q) : scanString (q :: cs) = none := by
  rw [scanString_quoted hq]
  split
  · next body c after heq =>
    rw [heq] at h
    rw [if_neg (by simpa using h)]
  · rfl

theorem scansAlike_scanString : ScansAlike scanString := by
  intro cs ds hpad
  by_cases hquote : ∃ q, IsQuote q ∧ cs.head? = some q
  · obtain ⟨q, hq, hhead⟩ := hquote
    obtain ⟨cs, rfl⟩ := List.head?_eq_some_iff.mp hhead
    obtain ⟨ds, rfl, hrest⟩ := hpad.cons
    obtain ⟨body, after, after', hcs, hds, hafter, hlt, hlt'⟩ | ⟨hcs, hds⟩ := scanQuoted_padded hq hrest
    · refine .inr ⟨q :: body ++ [q], after, after', ?_, ?_, hafter, ?_, ?_⟩
      · rw [scanString_quoted hq, hcs]
        exact if_pos rfl
      · rw [scanString_quoted hq, hds]
        exact if_pos rfl
      · simp only [List.length_cons]
        omega
      · simp only [List.length_cons]
        omega
    · exact .inl ⟨scanString_none hq hcs, scanString_none hq hds⟩
  · have hnone : ∀ es : List Char, (∀ q, IsQuote q → es.head? ≠ some q) → scanString es = none :=
      fun es h => scanString_of_head (h '"' (.inl rfl)) (h '\'' (.inr rfl))
    refine .inl ⟨hnone cs fun q hq hhead => hquote ⟨q, hq, hhead⟩, hnone ds fun q hq hhead => ?_⟩
    have hblank : Text.isBlank q = false := by
      obtain rfl | rfl := hq <;> decide
    exact hquote ⟨q, hq, (hpad.head hblank).mp hhead⟩

end TaskDialogue.Syntax
