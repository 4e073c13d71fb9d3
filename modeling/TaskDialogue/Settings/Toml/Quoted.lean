/-!
# Strings written in TOML

A string is written so that as little as possible is escaped: in double quotes if
nothing in it needs an escape, else in single quotes, and over several lines between
three quotes if it has several lines.
-/
namespace TaskDialogue.Toml

/-- How a string is written. -/
inductive TextStyle where
  | basic
  | literal
  | longBasic
  | longLiteral
deriving DecidableEq, Repr

namespace TextStyle

def quotes : TextStyle → List Char
  | basic => ['"']
  | literal => ['\'']
  | longBasic => ['"', '"', '"']
  | longLiteral => ['\'', '\'', '\'']

def isLong : TextStyle → Bool
  | longBasic | longLiteral => true
  | _ => false

end TextStyle

/-- Controls that no style can show as they are. -/
def isControl (c : Char) : Bool :=
  (c.toNat < 0x20 && c ≠ '\t' && c ≠ '\n') || c.toNat = 0x7F

/-- The greatest number of times that a character stands in a row, where it stood `run`
times just before. -/
def longestRun (quote : Char) : (run : Nat) → List Char → Nat
  | run, [] => run
  | run, c :: rest =>
    if c = quote then longestRun quote (run + 1) rest else max run (longestRun quote 0 rest)

/-- The first style in which the string can stand without escapes, a style with escapes
if there is none. -/
def TextStyle.of (cs : List Char) : TextStyle :=
  let controls := cs.any isControl
  let backslash := cs.contains '\\'
  let lines := cs.contains '\n'
  let double := longestRun '"' 0 cs
  let single := longestRun '\'' 0 cs
  if !controls && !backslash && double = 0 && !lines then basic
  else if !controls && single = 0 && !lines then literal
  else if !controls && !backslash && double ≤ 2 then longBasic
  else if !controls && single ≤ 2 then longLiteral
  else if lines then longBasic else basic

def escapeChar (long : Bool) (c : Char) : List Char :=
  match c with
  | '\x08' => ['\\', 'b']
  | '\t' => ['\\', 't']
  | '\n' => if long then ['\n'] else ['\\', 'n']
  | '\x0c' => ['\\', 'f']
  | '\r' => ['\\', 'r']
  | '\\' => ['\\', '\\']
  | c =>
    if isControl c then
      let ds := (Nat.toDigits 16 c.toNat).map Char.toUpper
      '\\' :: 'u' :: List.replicate (4 - ds.length) '0' ++ ds
    else [c]

/-- Characters between double quotes, where `run` quotes stand just before. Between three
quotes two of them may stand in a row. -/
def escape (long : Bool) : (run : Nat) → List Char → List Char
  | _, [] => []
  | run, c :: rest =>
    if c = '"' then
      if (if long then 2 else 0) ≤ run then '\\' :: '"' :: escape long 0 rest
      else '"' :: escape long (run + 1) rest
    else escapeChar long c ++ escape long 0 rest

/-- The written form of a string. Between three quotes a string of several lines starts
on a line of its own. -/
def quoted (s : String) : String :=
  let cs := s.toList
  let style := TextStyle.of cs
  let start := if style.isLong && cs.contains '\n' then ['\n'] else []
  let body := match style with
    | .basic => escape false 0 cs
    | .longBasic => escape true 0 cs
    | .literal | .longLiteral => cs
  String.ofList (style.quotes ++ start ++ body ++ style.quotes)

end TaskDialogue.Toml
