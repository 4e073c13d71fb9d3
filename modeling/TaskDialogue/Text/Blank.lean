/-!
# Blanks, lines and affixes

Text is cut on lists of characters. A blank is any character with the Unicode
property `White_Space`; the class of core (`Char.isWhitespace`) holds only four
of the twenty-five.
-/
namespace TaskDialogue.Text

/-- The characters with the Unicode property `White_Space`. -/
def isBlank (c : Char) : Bool :=
  let n := c.toNat
  (9 ≤ n && n ≤ 13) || n == 0x20 || n == 0x85 || n == 0xA0 || n == 0x1680 ||
  (0x2000 ≤ n && n ≤ 0x200A) || n == 0x2028 || n == 0x2029 || n == 0x202F ||
  n == 0x205F || n == 0x3000

/-- The four blanks of core are blanks here. -/
theorem isBlank_of_isWhitespace {c : Char} (h : c.isWhitespace = true) : isBlank c = true := by
  simp only [Char.isWhitespace, Bool.or_eq_true, decide_eq_true_eq] at h
  rcases h with ((h | h) | h) | h <;> subst h <;> decide

/-- The text without the blanks it starts with. -/
def trimStart (cs : List Char) : List Char := cs.dropWhile isBlank

/-- The text without the blanks it ends with. -/
def trimEnd (cs : List Char) : List Char := (cs.reverse.dropWhile isBlank).reverse

def trim (cs : List Char) : List Char := trimEnd (trimStart cs)

@[simp] theorem trimStart_nil : trimStart [] = [] := rfl
@[simp] theorem trimEnd_nil : trimEnd [] = [] := rfl
@[simp] theorem trim_nil : trim [] = [] := rfl

/-- The rest of `cs` after `start`, when `cs` begins with it. -/
def dropPrefix? : (start cs : List Char) → Option (List Char)
  | [], cs => some cs
  | _ :: _, [] => none
  | p :: ps, c :: cs => if p = c then dropPrefix? ps cs else none

@[simp] theorem dropPrefix?_append (start rest : List Char) :
    dropPrefix? start (start ++ rest) = some rest := by
  induction start with
  | nil => rfl
  | cons p ps ih => simp [dropPrefix?, ih]

theorem dropPrefix?_eq_some_iff {start cs rest : List Char} :
    dropPrefix? start cs = some rest ↔ cs = start ++ rest := by
  induction start generalizing cs with
  | nil => simp [dropPrefix?]
  | cons p ps ih =>
    cases cs with
    | nil => simp [dropPrefix?]
    | cons c cs =>
      by_cases h : p = c
      · subst h; simp [dropPrefix?, ih]
      · simp [dropPrefix?, h, Ne.symm h]

/-- What stands before `ending`, when `cs` ends with it. -/
def dropSuffix? (ending cs : List Char) : Option (List Char) :=
  (dropPrefix? ending.reverse cs.reverse).map List.reverse

theorem length_trim_le (cs : List Char) : (trim cs).length ≤ cs.length := by
  have h (p : Char → Bool) (ds : List Char) : (ds.dropWhile p).length ≤ ds.length :=
    (List.dropWhile_sublist p).length_le
  simp only [trim, trimEnd, trimStart, List.length_reverse]
  exact Nat.le_trans (h _ _) (by simpa using h _ cs)

theorem length_of_dropPrefix? {start cs rest : List Char} (h : dropPrefix? start cs = some rest) :
    cs.length = start.length + rest.length := by
  rw [dropPrefix?_eq_some_iff.1 h, List.length_append]

theorem length_of_dropSuffix? {ending cs rest : List Char}
    (h : dropSuffix? ending cs = some rest) : cs.length = rest.length + ending.length := by
  simp only [dropSuffix?, Option.map_eq_some_iff] at h
  obtain ⟨r, hr, rfl⟩ := h
  have := length_of_dropPrefix? hr
  simp only [List.length_reverse] at this ⊢
  omega

/-- The lines of a text. A line feed ends a line, so none follows one that
stands at the end. -/
def lines (cs : List Char) : List (List Char) :=
  let parts := cs.splitOn '\n'
  if parts.getLast? = some [] then parts.dropLast else parts

/-- The word before the first blank and what follows that blank. -/
def splitAtBlank? (cs : List Char) : Option (List Char × List Char) :=
  match cs.span (! isBlank ·) with
  | (_, []) => none
  | (word, _ :: rest) => some (word, rest)

end TaskDialogue.Text
