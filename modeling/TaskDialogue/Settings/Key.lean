import TaskDialogue.Number.Range
import TaskDialogue.Text.Digits

/-!
# Keys of settings

A key is a path: `log.level` is the entry `level` of the entry `log`, and `args[0]` is the
first item of `args`. A negative index counts from the end of the list. A key of any other
form is a single name. The case of letters does not count in names.
-/
namespace TaskDialogue.Setting

/-- The small letter of a character, if it is ASCII. Only the capitals of ASCII and the
Kelvin sign have one. -/
def lowerChar (c : Char) : Char := if c = '\u212A' then 'k' else c.toLower

/-- A name without the case of its letters. Names that are asked for are ASCII. -/
def lowerName (name : String) : String := String.ofList (name.toList.map lowerChar)

inductive Step where
  | name (s : String)
  | item (index : Int)
deriving DecidableEq, Repr

/-- Whether a character may stand in a name of a path. -/
def isNameChar (c : Char) : Bool := c.isAlphanum || c == '_' || c == '-' || c == ' '

def readName? (cs : List Char) : Option (Step × List Char) :=
  match cs.span isNameChar with
  | ([], _) => none
  | (name, rest) => some (.name (String.ofList name), rest)

def readIndex? (cs : List Char) : Option (Step × List Char) := do
  let blank (c : Char) : Bool := c == ' ' || c == '\t'
  let cs := cs.dropWhile blank
  let (down, cs) := match cs with
    | '-' :: rest => (true, rest)
    | _ => (false, cs)
  let n : Int ← Text.readDigits? (cs.takeWhile Char.isDigit)
  let index := if down then -n else n
  match (cs.dropWhile Char.isDigit).dropWhile blank with
  | ']' :: rest => if Number.fitsInt64 index then some (.item index, rest) else none
  | _ => none

/-- The steps of a path after its first name. Each takes a character at least. -/
def readSteps? : (fuel : Nat) → List Char → Option (List Step)
  | _, [] => some []
  | 0, _ => none
  | fuel + 1, c :: rest => do
    let (step, rest) ← if c = '.' then readName? rest else if c = '[' then readIndex? rest else none
    return step :: (← readSteps? fuel rest)

def pathOf (key : String) : List Step :=
  let steps := do
    let (first, rest) ← readName? key.toList
    return first :: (← readSteps? rest.length rest)
  steps.getD [.name key]

end TaskDialogue.Setting
