import TaskDialogue.Number.Shortest
import TaskDialogue.Json.Basic

/-!
# Values

What a variable or a slot holds. Tasks and entities are held by their place in the
store, so a task that is put into the slot of another one stays the same task.
-/
namespace TaskDialogue

/-- A value of a turn. `object` gives a place in the store. -/
inductive Value where
  | none
  | bool (b : Bool)
  | int (n : Int64)
  | float (x : Double)
  | str (s : String)
  | list (items : List Value)
  | object (id : Nat)
deriving Inhabited

namespace Value

def isNone : Value → Bool
  | none => true
  | _ => false

def object? : Value → Option Nat
  | object id => some id
  | _ => Option.none

/-- The type of a value, as messages name it. -/
def typeName : Value → String
  | none => "NoneType"
  | bool _ => "bool"
  | int _ => "int"
  | float _ => "float"
  | str _ => "str"
  | list _ => "list"
  | object _ => "object"

mutual

/-- The text of a value. Strings stand without quotes, also within lists. -/
def display : Value → String
  | none => "None"
  | bool true => "True"
  | bool false => "False"
  | int n => toString n.toInt
  | float x => x.render Double.plainStyle
  | str s => s
  | list items => "[" ++ displayItems items ++ "]"
  | object id => "<object #" ++ toString id ++ ">"

def displayItems : List Value → String
  | [] => ""
  | [item] => item.display
  | item :: rest => item.display ++ ", " ++ displayItems rest

end

mutual

/-- Whether two values are the same; doubles by their word. -/
def same : Value → Value → Bool
  | none, none => true
  | bool a, bool b => a = b
  | int m, int n => m = n
  | float x, float y => x = y
  | str s, str t => s = t
  | list xs, list ys => sameAll xs ys
  | object i, object j => i = j
  | _, _ => false

def sameAll : List Value → List Value → Bool
  | [], [] => true
  | x :: xs, y :: ys => x.same y && sameAll xs ys
  | _, _ => false

end

mutual

theorem same_iff : (v w : Value) → (v.same w = true ↔ v = w)
  | list xs, w => by cases w <;> simp [same, sameAll_iff xs]
  | none, w => by cases w <;> simp [same]
  | bool a, w => by cases w <;> simp [same]
  | int n, w => by cases w <;> simp [same]
  | float x, w => by cases w <;> simp [same]
  | str s, w => by cases w <;> simp [same]
  | object i, w => by cases w <;> simp [same]

theorem sameAll_iff : (xs ys : List Value) → (sameAll xs ys = true ↔ xs = ys)
  | [], ys => by cases ys <;> simp [sameAll]
  | x :: xs, ys => by cases ys <;> simp [sameAll, same_iff x, sameAll_iff xs]

end

instance : DecidableEq Value := fun v w => decidable_of_iff _ (same_iff v w)

def tagged (kind : String) (content : Json) : Json :=
  .object [("t", .string kind), ("v", content)]

mutual

def toJson : Value → Json
  | none => .object [("t", .string "None")]
  | bool b => tagged "Bool" (.bool b)
  | int n => tagged "Int" (.int n.toInt)
  | float x => tagged "Float" (.ofDouble x)
  | str s => tagged "Str" (.string s)
  | list items => tagged "List" (.array (toJsonAll items))
  | object id => tagged "Object" (.ofNat id)

def toJsonAll : List Value → List Json
  | [] => []
  | item :: rest => item.toJson :: toJsonAll rest

end

/-- A kind and its content, which may be missing, taken from an object or a pair. `inner`
says that the content stands within another variant, or before its kind. -/
structure Tagged where
  kind : String
  content : Option Json
  inner : Bool

/-- A kind with its content; `inner` says that they stand within another variant. -/
def Tagged.ofJson? (inner : Bool) : Json → Option Tagged
  | .object fields => do
    let first := fields.find? fun f => f.1 = "t" || f.1 = "v"
    return {
      kind := ← (Json.lookup? "t" fields).bind (Json.bareKind? inner)
      content := Json.lookup? "v" fields
      inner := inner || first.any (·.1 = "v") }
  | .array [kind, content] => do return ⟨← kind.bareKind? inner, some content, inner⟩
  | _ => Option.none

/-- Whether there is no content, or one that says nothing. -/
def Tagged.isBare (t : Tagged) : Bool := t.content.all Json.isNull

/-- The value that a JSON value describes, if it is nested less than `fuel` deep. -/
def ofJsonWithin? : (fuel : Nat) → (inner : Bool) → Json → Option Value
  | 0, _, _ => Option.none
  | fuel + 1, inner, j => do
    let t ← Tagged.ofJson? inner j
    match t.kind, t.content with
    | "None", _ => if t.isBare then some none else Option.none
    | "Bool", some content => return bool (← content.bool?)
    | "Int", some content => return int (← content.int64?)
    | "Float", some content => return float (← content.double?)
    | "Str", some content => return str (← content.string?)
    | "List", some content =>
      return list (← (← content.array?).mapM (ofJsonWithin? fuel t.inner))
    | "Object", some content => return object (← content.index?)
    | _, _ => Option.none

/-- The value that a JSON value describes; `inner` says that it stands within a variant
of something else. -/
def ofJson? (inner : Bool) (j : Json) : Option Value := ofJsonWithin? (j.depth + 1) inner j

end Value

end TaskDialogue
