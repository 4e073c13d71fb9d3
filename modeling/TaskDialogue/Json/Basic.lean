import TaskDialogue.Number.Double
import TaskDialogue.Number.Range
import TaskDialogue.Text.Digits

/-!
# JSON values

The fields of an object keep their order, and whole numbers stay apart from
numbers with a fraction or an exponent. An object has each key once: a repeated
key keeps its first place and takes the last value.
-/
namespace TaskDialogue

inductive Json where
  | null
  | bool (b : Bool)
  | int (n : Int)
  | float (x : Double)
  | string (s : String)
  | array (items : List Json)
  | object (fields : List (String × Json))
deriving Inhabited

namespace Json

/-- Set the value of a key: in its place, or at the end when the key is new. -/
def insertField (key : String) (value : Json) : List (String × Json) → List (String × Json)
  | [] => [(key, value)]
  | (k, v) :: rest =>
    if k = key then (k, value) :: rest else (k, v) :: insertField key value rest

def lookup? (key : String) : List (String × Json) → Option Json
  | [] => none
  | (k, v) :: rest => if k = key then some v else lookup? key rest

theorem lookup?_insertField (key other : String) (value : Json) (fields : List (String × Json)) :
    lookup? other (insertField key value fields) =
      if key = other then some value else lookup? other fields := by
  induction fields with
  | nil => simp [insertField, lookup?]
  | cons f rest ih =>
    obtain ⟨k, v⟩ := f
    by_cases hk : k = key
    · subst hk; by_cases ho : k = other <;> simp [insertField, lookup?, ho]
    · by_cases ho : k = other
      · subst ho; simp [insertField, lookup?, hk, Ne.symm hk]
      · simp [insertField, lookup?, hk, ho, ih]

def field? (key : String) : Json → Option Json
  | object fields => lookup? key fields
  | _ => none

def isNull : Json → Bool
  | null => true
  | _ => false

def string? : Json → Option String
  | string s => some s
  | _ => none

def bool? : Json → Option Bool
  | bool b => some b
  | _ => none

def array? : Json → Option (List Json)
  | array items => some items
  | _ => none

/-- An index below the word bound. -/
def index? : Json → Option Nat
  | int n => if 0 ≤ n && n < Text.indexBound then some n.toNat else none
  | _ => none

def int64? : Json → Option Int64
  | int n => Number.toInt64? n
  | _ => none

/-- A double; whole numbers are rounded to one. -/
def double? : Json → Option Double
  | int n => some (.ofInt n)
  | float x => some x
  | _ => none

def strings? (j : Json) : Option (List String) := j.array?.bind (·.mapM string?)

/-- JSON has no infinities: they are written as `null`. -/
def ofDouble (x : Double) : Json := if x.isFinite then float x else null

def ofNat (n : Nat) : Json := int n

def ofStrings (ss : List String) : Json := array (ss.map string)

/-- The value of an optional thing, `null` when there is none. -/
def ofOption {α : Type} (f : α → Json) : Option α → Json
  | none => null
  | some a => f a

/-- The fields whose value is present. -/
def objectOf (fields : List (String × Option Json)) : Json :=
  object (fields.filterMap fun f => f.2.map (f.1, ·))

/-- The values of a record's fields, in the order of `names`. A record is an
object, or an array that holds the first fields in order. -/
def record? (names : List String) : Json → Option (List (Option Json))
  | object fields => some (names.map (lookup? · fields))
  | array items =>
    if items.length ≤ names.length then
      some (items.map some ++ List.replicate (names.length - items.length) none)
    else none
  | _ => none

/-- The kind that a tag names, or whose place in the list of all kinds it gives. -/
def kind? (kinds : List String) : Json → Option String
  | string name => some name
  | int n => if 0 ≤ n then kinds[n.toNat]? else none
  | _ => none

/-- The kind that is named alone, or as the only key of an object that gives it nothing.
Within another variant an empty object is nothing too. -/
def bareKind? (inner : Bool) : Json → Option String
  | string name => some name
  | object [(name, null)] => some name
  | object [(name, object [])] => if inner then some name else none
  | _ => none

/-- A variant of a union: its kind, which `kind?` takes from the tag, and the other
fields as a record. -/
def variant? (tag : String) (kind? : Json → Option String) : Json → Option (String × Json)
  | object fields => do return (← (lookup? tag fields).bind kind?, object fields)
  | array (name :: items) => do return (← kind? name, array items)
  | _ => none

/-- A variant of a union whose tag is the name of a kind. -/
def tagged? (tag : String) (j : Json) : Option (String × Json) := j.variant? tag string?

mutual

def depth : Json → Nat
  | array items => depthItems items + 1
  | object fields => depthFields fields + 1
  | _ => 0

def depthItems : List Json → Nat
  | [] => 0
  | item :: rest => max item.depth (depthItems rest)

def depthFields : List (String × Json) → Nat
  | [] => 0
  | field :: rest => max (depthField field) (depthFields rest)

def depthField : String × Json → Nat
  | (_, value) => value.depth

end

end Json
end TaskDialogue
