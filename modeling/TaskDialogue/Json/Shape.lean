import TaskDialogue.Json.Reader
import TaskDialogue.Json.Writer
import TaskDialogue.Text.Printable

/-!
# Reading values of a known shape

A shape says what a JSON value must look like, and `Shape.Carrier` is the type of
the values it describes. `Shape.read` takes such a value off a text, and
`Shape.ofJson` takes it from a value that was read before. Both go through their
input in order and stop at the first thing that is wrong, be it the text or the
data. A record is an object whose unknown keys are ignored, or an array of its
fields in order.
-/
namespace TaskDialogue.Json

mutual

/-- What a JSON value must look like. -/
inductive Shape where
  | text
  | flag
  | any
  | table
  | list (item : Shape)
  | optional (value : Shape)
  | record (name : String) (fields : Fields)

/-- The fields of a record. One that is not required may be left out. -/
inductive Fields where
  | nil
  | cons (key : String) (required : Bool) (shape : Shape) (rest : Fields)

end

mutual

/-- The values that a shape describes. -/
def Shape.Carrier : Shape → Type
  | .text => String
  | .flag => Bool
  | .any => Json
  | .table => List (String × Json)
  | .list item => List item.Carrier
  | .optional value => Option value.Carrier
  | .record _ fields => fields.Carrier

def Fields.Carrier : Fields → Type
  | .nil => Unit
  | .cons _ _ shape rest => shape.Carrier × rest.Carrier

end

/-- A record of which only some fields are known. -/
def Fields.Draft : Fields → Type
  | .nil => Unit
  | .cons _ _ shape rest => Option shape.Carrier × rest.Draft

def Fields.size : Fields → Nat
  | .nil => 0
  | .cons _ _ _ rest => rest.size + 1

def Fields.noneKnown : (fields : Fields) → fields.Draft
  | .nil => ()
  | .cons _ _ _ rest => (none, rest.noneKnown)

mutual

/-- The value of a field that is left out. -/
def Shape.blank : (shape : Shape) → shape.Carrier
  | .text => ""
  | .flag => false
  | .any => null
  | .table => []
  | .list _ => []
  | .optional _ => none
  | .record _ fields => fields.blank

def Fields.blank : (fields : Fields) → fields.Carrier
  | .nil => ()
  | .cons _ _ shape rest => (shape.blank, rest.blank)

end

/-- The record, when no required field is missing. -/
def Fields.finish : (fields : Fields) → fields.Draft → Except Fault fields.Carrier
  | .nil, _ => .ok ()
  | .cons key required shape rest, (value, values) =>
    match value with
    | some v => (rest.finish values).map (v, ·)
    | none =>
      if required then .error (.missingField key)
      else (rest.finish values).map (shape.blank, ·)

/-- What a shape asks for, as a message names it. -/
def Shape.expected : Shape → String
  | .text => "a string"
  | .flag => "a boolean"
  | .any => "any valid JSON value"
  | .table => "a map"
  | .list _ => "a sequence"
  | .optional value => value.expected
  | .record name _ => "struct " ++ name

/-- How a message names a value that was found. -/
def found : Json → String
  | null => "null"
  | bool b => "boolean `" ++ (if b then "true" else "false") ++ "`"
  | int n => "integer `" ++ toString n ++ "`"
  | float x => "floating point `" ++ String.ofList (renderDouble x) ++ "`"
  | string s => "string " ++ Text.quoted s
  | array _ => "sequence"
  | object _ => "map"

/-- The fault of a value that is not of the shape. Of a list or an object only
the opening is looked at. -/
def wrongType (shape : Shape) (cs : List Char) : Fault :=
  let fault (value : Except Fault Json) : Fault :=
    match value with
    | .error e => e
    | .ok value => .invalidType (found value) shape.expected
  match skipSpace cs with
  | [] => .eofValue
  | 'n' :: rest => fault ((readWord "ull".toList rest).map fun _ => null)
  | 't' :: rest => fault ((readWord "rue".toList rest).map fun _ => bool true)
  | 'f' :: rest => fault ((readWord "alse".toList rest).map fun _ => bool false)
  | '-' :: rest => fault ((readNumber true rest).map (·.1))
  | '"' :: rest => fault ((readString rest).map fun r => string r.1)
  | '[' :: _ => fault (.ok (array []))
  | '{' :: _ => fault (.ok (object []))
  | c :: rest => if c.isDigit then fault ((readNumber false (c :: rest)).map (·.1)) else .expectedValue

/-- The items of a list up to its closing bracket, each read by `item`. -/
def readList {α : Type} (item : List Char → Except Fault (α × List Char)) :
    (fuel : Nat) → Bool → List Char → Except Fault (List α × List Char)
  | 0, _, _ => .error .eofList
  | fuel + 1, first, cs => do
    match ← itemAhead? first cs with
    | none => return ([], ← closeList cs)
    | some rest =>
      let (value, rest) ← item rest
      let (values, rest) ← readList item fuel false rest
      return (value :: values, rest)

/-- The fields of an object up to its closing brace. `field` reads the value of a
known key into the draft, from the colon on. -/
def readRecord {δ : Type} (field : String → δ → Option (List Char → Except Fault (δ × List Char))) :
    (fuel : Nat) → Bool → δ → List Char → Except Fault (δ × List Char)
  | 0, _, _, _ => .error .eofObject
  | fuel + 1, first, draft, cs => do
    match ← keyAhead? first cs with
    | none => return (draft, cs)
    | some (key, rest) =>
      match field key draft with
      | some reader =>
        let (draft, rest) ← reader rest
        readRecord field fuel false draft rest
      | none =>
        let rest ← skipValue (fuelFor rest) (← readColon rest)
        readRecord field fuel false draft rest

mutual

/-- Take a value of the shape off a text, with room for `depth` containers. -/
def Shape.read : (shape : Shape) → (depth : Nat) → List Char →
    Except Fault (shape.Carrier × List Char)
  | .text, _, cs =>
    match skipSpace cs with
    | '"' :: rest => readString rest
    | _ => .error (wrongType .text cs)
  | .flag, _, cs =>
    match skipSpace cs with
    | 't' :: rest => (readWord "rue".toList rest).map (true, ·)
    | 'f' :: rest => (readWord "alse".toList rest).map (false, ·)
    | _ => .error (wrongType .flag cs)
  | .any, depth, cs => readValue (fuelFor cs) depth cs
  | .table, depth, cs =>
    match skipSpace cs, depth with
    | '{' :: _, 0 => .error .tooDeep
    | '{' :: rest, depth + 1 => readFields (fuelFor rest) depth true [] rest
    | _, _ => .error (wrongType .table cs)
  | .list item, depth, cs =>
    match skipSpace cs, depth with
    | '[' :: _, 0 => .error .tooDeep
    | '[' :: rest, depth + 1 => readList (item.read depth) (fuelFor rest) true rest
    | _, _ => .error (wrongType (.list item) cs)
  | .optional value, depth, cs =>
    match skipSpace cs with
    | 'n' :: rest => (readWord "ull".toList rest).map (none, ·)
    | _ => (value.read depth cs).map fun r => (some r.1, r.2)
  | .record name fields, depth, cs =>
    match skipSpace cs, depth with
    | '[' :: _, 0 => .error .tooDeep
    | '{' :: _, 0 => .error .tooDeep
    | '[' :: rest, depth + 1 =>
      match fields.readItems depth name fields.size 0 rest with
      | .error e => .error e
      | .ok (value, rest) => (closeList rest).map (value, ·)
    | '{' :: rest, depth + 1 =>
      match readRecord (fields.readField depth) (fuelFor rest) true fields.noneKnown rest with
      | .error e => .error e
      | .ok (draft, rest) =>
        match fields.finish draft with
        | .error e => .error e
        | .ok value => (closeObject rest).map (value, ·)
    | _, _ => .error (wrongType (.record name fields) cs)

/-- The fields of a record that is written as an array, up to the closing
bracket. -/
def Fields.readItems : (fields : Fields) → (depth : Nat) → (name : String) → (total index : Nat) →
    List Char → Except Fault (fields.Carrier × List Char)
  | .nil, _, _, _, _, cs => .ok ((), cs)
  | .cons _ required shape rest, depth, name, total, index, cs =>
    match itemAhead? (index = 0) cs with
    | .error e => .error e
    | .ok none =>
      if required then
        .error (.invalidLength index ("struct " ++ name ++ " with " ++ toString total ++ " elements"))
      else (rest.readItems depth name total (index + 1) cs).map fun r => ((shape.blank, r.1), r.2)
    | .ok (some cs) =>
      match shape.read depth cs with
      | .error e => .error e
      | .ok (value, cs) =>
        (rest.readItems depth name total (index + 1) cs).map fun r => ((value, r.1), r.2)

/-- The reader of a known key's value, from the colon on. A key may stand once. -/
def Fields.readField : (fields : Fields) → (depth : Nat) → String → fields.Draft →
    Option (List Char → Except Fault (fields.Draft × List Char))
  | .nil, _, _, _ => none
  | .cons key _ shape rest, depth, name, (value, values) =>
    if key = name then
      some fun cs =>
        if value.isSome then .error (.duplicateField key)
        else
          match readColon cs with
          | .error e => .error e
          | .ok cs => (shape.read depth cs).map fun r => ((some r.1, values), r.2)
    else
      (rest.readField depth name values).map fun reader cs =>
        (reader cs).map fun r => ((value, r.1), r.2)

end

/-- The value of the shape that a whole text holds. -/
def Shape.parse (shape : Shape) (text : String) : Except Fault shape.Carrier := do
  let (value, rest) ← shape.read maxDepth text.toList
  endOfText rest
  return value

/-- Go through the fields of an object in order. -/
def takeFields {δ : Type} (field : String → δ → Option (Json → Except Fault δ)) :
    List (String × Json) → δ → Except Fault δ
  | [], draft => .ok draft
  | (key, value) :: rest, draft =>
    match field key draft with
    | none => takeFields field rest draft
    | some take =>
      match take value with
      | .error e => .error e
      | .ok draft => takeFields field rest draft

mutual

/-- The value of the shape that a JSON value holds. -/
def Shape.ofJson : (shape : Shape) → Json → Except Fault shape.Carrier
  | .text, .string s => .ok s
  | .flag, .bool b => .ok b
  | .any, value => .ok value
  | .table, .object fields => .ok fields
  | .list item, .array items => items.mapM item.ofJson
  | .optional _, .null => .ok none
  | .optional value, j => (value.ofJson j).map some
  | .record name fields, .array items =>
    match fields.ofItems name fields.size 0 items with
    | .error e => .error e
    | .ok value =>
      if items.length ≤ fields.size then .ok value
      else .error (.invalidLength items.length "fewer elements in array")
  | .record _ fields, .object entries =>
    match takeFields fields.ofField entries fields.noneKnown with
    | .error e => .error e
    | .ok draft => fields.finish draft
  | shape, value => .error (.invalidType (found value) shape.expected)

def Fields.ofItems : (fields : Fields) → (name : String) → (total index : Nat) → List Json →
    Except Fault fields.Carrier
  | .nil, _, _, _, _ => .ok ()
  | .cons _ required shape rest, name, total, index, items =>
    match items with
    | [] =>
      if required then
        .error (.invalidLength index ("struct " ++ name ++ " with " ++ toString total ++ " elements"))
      else (rest.ofItems name total (index + 1) []).map (shape.blank, ·)
    | item :: items =>
      match shape.ofJson item with
      | .error e => .error e
      | .ok value => (rest.ofItems name total (index + 1) items).map (value, ·)

def Fields.ofField : (fields : Fields) → String → fields.Draft →
    Option (Json → Except Fault fields.Draft)
  | .nil, _, _ => none
  | .cons key _ shape rest, name, (value, values) =>
    if key = name then
      some fun j =>
        if value.isSome then .error (.duplicateField key)
        else (shape.ofJson j).map fun v => (some v, values)
    else (rest.ofField name values).map fun take j => (take j).map (value, ·)

end

end TaskDialogue.Json
