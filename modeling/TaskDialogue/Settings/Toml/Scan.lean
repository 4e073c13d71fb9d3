import TaskDialogue.Text.Hex

/-!
# Tokens of TOML text

Blanks, comments, line ends, keys and strings. A reader takes its token off the
front of the text, or fails.
-/
namespace TaskDialogue.Toml

/-- The blanks within a line. -/
def isSpace (c : Char) : Bool := c == ' ' || c == '\t'

/-- The characters that stand for themselves: all but controls, of which only the tab
is one. -/
def isPlain (c : Char) : Bool := c == '\t' || (0x20 ≤ c.toNat && c.toNat ≠ 0x7F)

def skipSpace (cs : List Char) : List Char := cs.dropWhile isSpace

/-- What follows a line end. A carriage return needs its line feed. -/
def newline? : List Char → Option (List Char)
  | '\n' :: rest => some rest
  | '\r' :: '\n' :: rest => some rest
  | _ => none

/-- What follows the rest of a line that holds nothing but blanks and a comment. -/
def endLine? (cs : List Char) : Option (List Char) :=
  let rest := match skipSpace cs with
    | '#' :: rest => rest.dropWhile isPlain
    | rest => rest
  if rest.isEmpty then some [] else newline? rest

/-- Pass over blanks, line ends and comments. -/
def skipGaps : (comment : Bool) → List Char → List Char
  | _, [] => []
  | _, '\n' :: rest => skipGaps false rest
  | _, '\r' :: '\n' :: rest => skipGaps false rest
  | false, '#' :: rest => skipGaps true rest
  | comment, c :: rest =>
    if (if comment then isPlain c else isSpace c) then skipGaps comment rest else c :: rest

/-- The character that a one-letter escape stands for. -/
def escaped? : Char → Option Char
  | 'b' => some '\x08'
  | 't' => some '\t'
  | 'n' => some '\n'
  | 'f' => some '\x0c'
  | 'r' => some '\r'
  | '"' => some '"'
  | '\\' => some '\\'
  | _ => none

/-- The character of an escape, after its backslash. -/
def escape? : List Char → Option (Char × List Char)
  | 'u' :: a :: b :: c :: d :: rest => (Text.numbered? [a, b, c, d]).map (·, rest)
  | 'U' :: a :: b :: c :: d :: e :: f :: g :: h :: rest =>
    (Text.numbered? [a, b, c, d, e, f, g, h]).map (·, rest)
  | c :: rest => (escaped? c).map (·, rest)
  | [] => none

theorem length_of_escape? {cs rest : List Char} {c : Char} (h : escape? cs = some (c, rest)) :
    rest.length < cs.length := by
  unfold escape? at h
  split at h <;> simp only [Option.map_eq_some_iff, Prod.mk.injEq, reduceCtorEq] at h <;>
    (obtain ⟨_, _, _, rfl⟩ := h; simp only [List.length_cons]; omega)

/-- A string in double quotes, after the first of them. -/
def basicString? (cs : List Char) : Option (List Char × List Char) :=
  match cs with
  | [] => none
  | c :: rest =>
    if c = '"' then some ([], rest)
    else if c = '\\' then
      match h : escape? rest with
      | none => none
      | some (x, rest') =>
        have : rest'.length < rest.length := length_of_escape? h
        (basicString? rest').map fun r => (x :: r.1, r.2)
    else if isPlain c then (basicString? rest).map fun r => (c :: r.1, r.2)
    else none
termination_by cs.length

/-- A string in single quotes, after the first of them. It has no escapes. -/
def literalString? (cs : List Char) : Option (List Char × List Char) :=
  match cs.span fun c => isPlain c && c ≠ '\'' with
  | (s, '\'' :: rest) => some (s, rest)
  | _ => none

/-- What follows three quotes that end a string. Up to two more quotes belong to the
string. -/
def closing (quote : Char) : List Char → List Char × List Char
  | a :: b :: rest =>
    if a ≠ quote then ([], a :: b :: rest)
    else if b = quote then ([a, b], rest)
    else ([a], b :: rest)
  | [a] => if a = quote then ([a], []) else ([], [a])
  | [] => ([], [])

/-- A string of several lines in double quotes, after its opening. A backslash at the
end of a line takes out all blanks and line ends up to the next character; `gap` says
that this is going on. -/
def longBasicString? (gap : Bool) (cs : List Char) : Option (List Char × List Char) :=
  match cs with
  | '"' :: '"' :: '"' :: rest => some (closing '"' rest)
  | '\n' :: rest =>
    if gap then longBasicString? true rest
    else (longBasicString? false rest).map fun r => ('\n' :: r.1, r.2)
  | '\r' :: '\n' :: rest =>
    if gap then longBasicString? true rest
    else (longBasicString? false rest).map fun r => ('\n' :: r.1, r.2)
  | '\\' :: rest =>
    if (newline? (skipSpace rest)).isSome then longBasicString? true rest
    else
      match h : escape? rest with
      | none => none
      | some (x, rest') =>
        have : rest'.length < rest.length := length_of_escape? h
        (longBasicString? false rest').map fun r => (x :: r.1, r.2)
  | c :: rest =>
    if gap && isSpace c then longBasicString? true rest
    else if isPlain c then (longBasicString? false rest).map fun r => (c :: r.1, r.2)
    else none
  | [] => none
termination_by cs.length

/-- A string of several lines in single quotes, after its opening. -/
def longLiteralString? : List Char → Option (List Char × List Char)
  | '\'' :: '\'' :: '\'' :: rest => some (closing '\'' rest)
  | '\n' :: rest => (longLiteralString? rest).map fun r => ('\n' :: r.1, r.2)
  | '\r' :: '\n' :: rest => (longLiteralString? rest).map fun r => ('\n' :: r.1, r.2)
  | c :: rest => if isPlain c then (longLiteralString? rest).map fun r => (c :: r.1, r.2) else none
  | [] => none

/-- A string of any form. A line end right after an opening of three quotes does not
count. -/
def string? (cs : List Char) : Option (String × List Char) :=
  let body (rest : List Char) := (newline? rest).getD rest
  let read := match cs with
    | '"' :: '"' :: '"' :: rest => longBasicString? false (body rest)
    | '\'' :: '\'' :: '\'' :: rest => longLiteralString? (body rest)
    | '"' :: rest => basicString? rest
    | '\'' :: rest => literalString? rest
    | _ => none
  read.map fun r => (String.ofList r.1, r.2)

/-- The characters of a key without quotes. -/
def isBare (c : Char) : Bool := c.isAlphanum || c == '_' || c == '-'

def key? (cs : List Char) : Option (String × List Char) :=
  match cs with
  | '"' :: rest => (basicString? rest).map fun r => (String.ofList r.1, r.2)
  | '\'' :: rest => (literalString? rest).map fun r => (String.ofList r.1, r.2)
  | _ =>
    match cs.span isBare with
    | ([], _) => none
    | (name, rest) => some (String.ofList name, rest)

/-- Keys with points between them, at most `most`, and the blanks around them. -/
def keys? : (most : Nat) → List Char → Option (List String × List Char)
  | 0, _ => none
  | most + 1, cs => do
    let (key, rest) ← key? (skipSpace cs)
    match skipSpace rest with
    | '.' :: rest =>
      let (keys, rest) ← keys? most rest
      some (key :: keys, rest)
    | rest => some ([key], rest)

def maxKeys : Nat := 79

end TaskDialogue.Toml
