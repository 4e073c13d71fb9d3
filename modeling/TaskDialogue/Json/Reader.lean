import TaskDialogue.Json.Scan

/-!
# Reading JSON values

Values may be nested 127 deep. A value that no one asks for is passed over: then
neither its depth nor the size of its numbers nor the halves of its escaped
characters matter.
-/
namespace TaskDialogue.Json

/-- How many containers may be open at once. -/
def maxDepth : Nat := 127

mutual

/-- A value, with room for `depth` containers. Every step takes a character off
the text or goes from an item to its value, so twice the length is fuel enough. -/
def readValue : (fuel depth : Nat) → List Char → Except Fault (Json × List Char)
  | 0, _, _ => .error .eofValue
  | fuel + 1, depth, cs =>
    match skipSpace cs with
    | [] => .error .eofValue
    | 'n' :: rest => do return (null, ← readWord "ull".toList rest)
    | 't' :: rest => do return (bool true, ← readWord "rue".toList rest)
    | 'f' :: rest => do return (bool false, ← readWord "alse".toList rest)
    | '-' :: rest => readNumber true rest
    | '"' :: rest => do
      let (s, rest) ← readString rest
      return (string s, rest)
    | '[' :: rest =>
      match depth with
      | 0 => .error .tooDeep
      | depth + 1 => do
        let (items, rest) ← readItems fuel depth true rest
        return (array items, rest)
    | '{' :: rest =>
      match depth with
      | 0 => .error .tooDeep
      | depth + 1 => do
        let (fields, rest) ← readFields fuel depth true [] rest
        return (object fields, rest)
    | c :: rest => if c.isDigit then readNumber false (c :: rest) else .error .expectedValue

/-- The items of a list up to its closing bracket. -/
def readItems : (fuel depth : Nat) → Bool → List Char → Except Fault (List Json × List Char)
  | 0, _, _, _ => .error .eofList
  | fuel + 1, depth, first, cs => do
    match ← itemAhead? first cs with
    | none => return ([], ← closeList cs)
    | some rest =>
      let (item, rest) ← readValue fuel depth rest
      let (items, rest) ← readItems fuel depth false rest
      return (item :: items, rest)

/-- The fields of an object up to its closing brace, added to those before. -/
def readFields : (fuel depth : Nat) → Bool → List (String × Json) → List Char →
    Except Fault (List (String × Json) × List Char)
  | 0, _, _, _, _ => .error .eofObject
  | fuel + 1, depth, first, fields, cs => do
    match ← keyAhead? first cs with
    | none => return (fields, ← closeObject cs)
    | some (key, rest) =>
      let rest ← readColon rest
      let (value, rest) ← readValue fuel depth rest
      readFields fuel depth false (insertField key value fields) rest

end

def fuelFor (cs : List Char) : Nat := 2 * cs.length + 2

def parse (text : String) : Except Fault Json := do
  let cs := text.toList
  let (value, rest) ← readValue (fuelFor cs) maxDepth cs
  endOfText rest
  return value

mutual

def skipValue : Nat → List Char → Except Fault (List Char)
  | 0, _ => .error .eofValue
  | fuel + 1, cs =>
    match skipSpace cs with
    | [] => .error .eofValue
    | 'n' :: rest => readWord "ull".toList rest
    | 't' :: rest => readWord "rue".toList rest
    | 'f' :: rest => readWord "alse".toList rest
    | '-' :: rest => skipNumber rest
    | '"' :: rest => skipString rest
    | '[' :: rest => skipItems fuel true rest
    | '{' :: rest => skipFields fuel true rest
    | c :: rest => if c.isDigit then skipNumber (c :: rest) else .error .expectedValue

/-- Pass over the items of a list and its closing bracket. -/
def skipItems : Nat → Bool → List Char → Except Fault (List Char)
  | 0, _, _ => .error .eofList
  | fuel + 1, first, cs =>
    match skipSpace cs with
    | [] => .error .eofList
    | ']' :: rest => .ok rest
    | c :: rest => do
      if !first && c ≠ ',' then .error .expectedListEnd
      else skipItems fuel false (← skipValue fuel (if first then c :: rest else rest))

/-- Pass over the fields of an object and its closing brace. -/
def skipFields : Nat → Bool → List Char → Except Fault (List Char)
  | 0, _, _ => .error .eofObject
  | fuel + 1, first, cs =>
    match skipSpace cs with
    | [] => .error .eofObject
    | '\x7d' :: rest => .ok rest
    | c :: rest =>
      if !first && c ≠ ',' then .error .expectedObjectEnd
      else
        match skipSpace (if first then c :: rest else rest) with
        | [] => .error .eofObject
        | '"' :: rest => do
          let rest ← readColon (← skipString rest)
          skipFields fuel false (← skipValue fuel rest)
        | _ => .error .keyNotString

end

end TaskDialogue.Json
