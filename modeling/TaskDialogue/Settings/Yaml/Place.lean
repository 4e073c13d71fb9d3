/-!
# Places in YAML text

Indentation gives YAML text its structure, so what is left of a text is kept with the line
and the column where it starts. Only line feeds and carriage returns end a line.
-/
namespace TaskDialogue.Yaml

def isBlank (c : Char) : Bool := c == ' ' || c == '\t'

def isBreak (c : Char) : Bool := c == '\n' || c == '\r'

/-- The characters that structure collections in brackets. -/
def isFlow (c : Char) : Bool := c == ',' || c == '[' || c == ']' || c == '{' || c == '\x7d'

def endsLine : List Char → Bool
  | [] => true
  | c :: _ => isBreak c

def endsWord : List Char → Bool
  | [] => true
  | c :: _ => isBlank c || isBreak c

/-- What is left of a text, and where it starts. -/
structure Place where
  rest : List Char
  /-- How many characters come before. -/
  index : Nat
  line : Nat
  /-- How many characters of the line come before. -/
  col : Nat
  /-- Whether only blanks come before in the line. -/
  indenting : Bool

namespace Place

/-- The start of a text, which ends before its first NUL. -/
def start (text : String) : Place := ⟨text.toList.takeWhile (· ≠ '\x00'), 0, 0, 0, true⟩

def skipBlanks (p : Place) (n : Nat) : Place :=
  { p with rest := p.rest.drop n, index := p.index + n, col := p.col + n }

/-- Pass over characters within a line. -/
def skip (p : Place) (n : Nat) : Place := { p.skipBlanks n with indenting := false }

def skipBreak (p : Place) : Place :=
  let after (n : Nat) : Place := ⟨p.rest.drop n, p.index + n, p.line + 1, 0, true⟩
  match p.rest with
  | '\r' :: '\n' :: _ => after 2
  | c :: _ => if isBreak c then after 1 else p
  | [] => p

def skipLine (p : Place) : Place := p.skip (p.rest.takeWhile (!isBreak ·)).length

/-- Pass over blanks, and over a comment after them. The blanks are given back. -/
def skipComment? (p : Place) (tabs : Bool) : Option (List Char × Place) :=
  let blanks := p.rest.takeWhile fun c => c == ' ' || tabs && c == '\t'
  let p := p.skipBlanks blanks.length
  if p.rest.head? ≠ some '#' then some (blanks, p)
  else if blanks.isEmpty then none
  else some (blanks, p.skipLine)

/-- Whether a line starts here with three marks that stand alone. -/
def isMarked (p : Place) (mark : Char) : Bool :=
  match p.rest with
  | a :: b :: c :: rest => p.col == 0 && a == mark && b == mark && c == mark && endsWord rest
  | _ => false

def startsDocument (p : Place) : Bool := p.isMarked '-'

def endsDocument (p : Place) : Bool := p.isMarked '.'

end Place

end TaskDialogue.Yaml
