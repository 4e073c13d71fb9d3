import TaskDialogue.Settings.Setting
import TaskDialogue.Text.Blank
import TaskDialogue.Text.Hex

/-!
# Settings in sections of lines

```
name = value
; comment
[section]
name: "value; with 'marks' and a line \
end in it"
```

All values are texts, without blanks around them. A comment fills a line from its first
column on; a value goes to the end of its line unless quotes or a backslash keep it open.
Definitions before the first section belong to no section. A section that is opened again
starts anew, and the last definition of a name counts.
-/
namespace TaskDialogue.Ini

/-- The character that a letter after a backslash stands for; other characters stand for
themselves. -/
def escaped : Char → Char
  | '0' => '\x00'
  | 'a' => '\x07'
  | 'b' => '\x08'
  | 't' => '\t'
  | 'r' => '\r'
  | 'n' => '\n'
  | c => c

/-- The character whose number four characters write: hexadecimal digits, the first of
which may be a plus sign. -/
def numbered? : List Char → Option Char
  | '+' :: digits => Text.numbered? digits
  | digits => Text.numbered? digits

/-- The text up to a character that ends it, and the rest from there. A backslash takes
out the line end after it. `mustEnd` says that the end of all is no such end. -/
def readUntil (ends : Char → Bool) (mustEnd : Bool) : List Char → Option (List Char × List Char)
  | [] => if mustEnd then none else some ([], [])
  | '\\' :: '\n' :: rest => readUntil ends mustEnd rest
  | '\\' :: 'x' :: a :: b :: c :: d :: rest => do
    let x ← numbered? [a, b, c, d]
    let (cs, rest) ← readUntil ends mustEnd rest
    return (x :: cs, rest)
  | ['\\'] => none
  | '\\' :: c :: rest =>
    if c = 'x' then none
    else (readUntil ends mustEnd rest).map fun r => (escaped c :: r.1, r.2)
  | c :: rest =>
    if ends c then some ([], c :: rest)
    else (readUntil ends mustEnd rest).map fun r => (c :: r.1, r.2)

def endsLine (c : Char) : Bool := c == '\n' || c == '\r'

def lineRest? (cs : List Char) : Option (List Char × List Char) := readUntil endsLine false cs

/-- A value. What follows a closing quote in the line is part of it, but blanks around the
whole are not, be they in quotes. -/
def value? (cs : List Char) : Option (List Char × List Char) :=
  let quoted (quote : Char) (cs : List Char) : Option (List Char × List Char) := do
    let (inside, rest) ← readUntil (· == quote) true cs
    let (after, rest) ← lineRest? (rest.drop 1)
    return (inside ++ after, rest)
  let read := match cs.dropWhile fun c => Text.isBlank c && !endsLine c with
    | '"' :: rest => quoted '"' rest
    | '\'' :: rest => quoted '\'' rest
    | rest => lineRest? rest
  read.map fun r => (Text.trim r.1, r.2)

/-- What was defined so far: in no section, and in the sections, the last one first. -/
structure Draft where
  general : List (String × Setting)
  sections : List (String × List (String × Setting))

namespace Draft

def openSection (d : Draft) (name : String) : Draft :=
  { d with sections := (name, []) :: d.sections }

def define (d : Draft) (name value : String) : Draft :=
  match d.sections with
  | [] => { d with general := Setting.insert name (.text value) d.general }
  | (header, entries) :: before =>
    { d with sections := (header, Setting.insert name (.text value) entries) :: before }

/-- The entries of all that was defined. A section takes the place of a definition of its
name. -/
def entries (d : Draft) : List (String × Setting) :=
  d.sections.reverse.foldl (fun es s => Setting.insert s.1 (.table s.2) es) d.general

end Draft

/-- Pass over blanks and line ends; `fresh` says whether a line starts here. -/
def skipBlanks (fresh : Bool) : List Char → Bool × List Char
  | [] => (fresh, [])
  | c :: rest => if Text.isBlank c then skipBlanks (c == '\n') rest else (fresh, c :: rest)

/-- Read comments, headers and definitions. Each takes a character at least. -/
def read? : (fuel : Nat) → (fresh : Bool) → Draft → List Char → Option Draft
  | 0, _, _, _ => none
  | fuel + 1, fresh, d, cs =>
    match skipBlanks fresh cs with
    | (_, []) => some d
    | (fresh, c :: rest) =>
      if c = ';' || c = '#' then
        if fresh then read? fuel true d ((rest.dropWhile (· ≠ '\n')).drop 1) else none
      else if c = '[' then do
        let (name, rest) ← readUntil (· == ']') true rest
        read? fuel false (d.openSection (String.ofList (Text.trim name))) (rest.drop 1)
      else do
        let (name, rest) ← readUntil (fun c => c == '=' || c == ':') true (c :: rest)
        let name := Text.trim name
        if name.isEmpty then none else
        let (value, rest) ← value? (rest.drop 1)
        read? fuel false (d.define (String.ofList name) (String.ofList value)) rest

def parse? (text : String) : Option (List (String × Setting)) :=
  let cs := text.toList
  (read? (cs.length + 1) true ⟨[], []⟩ cs).map Draft.entries

end TaskDialogue.Ini
