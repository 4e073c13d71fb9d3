import TaskDialogue.Json.Basic
import TaskDialogue.Number.Shortest

/-!
# JSON text

The compact form has no blanks; the indented form puts each item on a line of
its own. Strings escape the quote, the backslash and the control characters, and
nothing else.
-/
namespace TaskDialogue.Json

def hexDigit (n : Nat) : Char := (Nat.digitChar n)

/-- A character as it stands in a JSON string. -/
def escapeChar (c : Char) : List Char :=
  match c with
  | '"' => ['\\', '"']
  | '\\' => ['\\', '\\']
  | '\x08' => ['\\', 'b']
  | '\t' => ['\\', 't']
  | '\n' => ['\\', 'n']
  | '\x0c' => ['\\', 'f']
  | '\r' => ['\\', 'r']
  | c =>
    if c.toNat < 0x20 then
      ['\\', 'u', '0', '0', hexDigit (c.toNat / 16), hexDigit (c.toNat % 16)]
    else [c]

def quote (s : String) : List Char := '"' :: s.toList.flatMap escapeChar ++ ['"']

/-- The text of a value that holds no others. -/
def renderInt (n : Int) : List Char :=
  if n < 0 then '-' :: Nat.toDigits 10 n.natAbs else Nat.toDigits 10 n.natAbs

def renderDouble (x : Double) : List Char :=
  if x.isFinite then (x.render Double.jsonStyle).toList else "null".toList

mutual

def render : Json → List Char
  | null => "null".toList
  | bool true => "true".toList
  | bool false => "false".toList
  | int n => renderInt n
  | float x => renderDouble x
  | string s => quote s
  | array items => '[' :: renderItems items ++ [']']
  | object fields => '{' :: renderFields fields ++ ['}']

def renderItems : List Json → List Char
  | [] => []
  | [item] => item.render
  | item :: rest => item.render ++ ',' :: renderItems rest

def renderFields : List (String × Json) → List Char
  | [] => []
  | [field] => renderField field
  | field :: rest => renderField field ++ ',' :: renderFields rest

def renderField : String × Json → List Char
  | (key, value) => quote key ++ ':' :: value.render

end

/-- A line feed and the blanks that a line at this depth starts with. -/
def newline (depth : Nat) : List Char := '\n' :: List.replicate (2 * depth) ' '

mutual

/-- The indented text of a value at some depth. -/
def indented (depth : Nat) : Json → List Char
  | array [] => ['[', ']']
  | object [] => ['{', '}']
  | array items => '[' :: indentedItems (depth + 1) items ++ newline depth ++ [']']
  | object fields => '{' :: indentedFields (depth + 1) fields ++ newline depth ++ ['}']
  | null => render null
  | bool b => render (bool b)
  | int n => render (int n)
  | float x => render (float x)
  | string s => render (string s)

def indentedItems (depth : Nat) : List Json → List Char
  | [] => []
  | [item] => newline depth ++ indented depth item
  | item :: rest => newline depth ++ indented depth item ++ ',' :: indentedItems depth rest

def indentedFields (depth : Nat) : List (String × Json) → List Char
  | [] => []
  | [field] => newline depth ++ indentedField depth field
  | field :: rest => newline depth ++ indentedField depth field ++ ',' :: indentedFields depth rest

def indentedField (depth : Nat) : String × Json → List Char
  | (key, value) => quote key ++ ':' :: ' ' :: indented depth value

end

def compact (j : Json) : String := String.ofList j.render

def pretty (j : Json) : String := String.ofList (j.indented 0)

end TaskDialogue.Json
