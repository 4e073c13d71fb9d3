import TaskDialogue.Text.Blank
import TaskDialogue.Task.Value

/-!
# Slot types

The type of a slot is read from a tag such as `str`, `Optional[int]` or
`List[str]`. A tag that is no known type names a type of objects. Every slot takes
`None`, since it is empty until it is filled.
-/
namespace TaskDialogue

/-- What a slot or an attribute holds. -/
inductive SlotType where
  | str
  | int
  | float
  | bool
  | list
  | object (name : String)
  | any
deriving DecidableEq, Repr, Inhabited

namespace SlotType

/-- The types with a name of their own. The blank tag admits anything. -/
def named? : String → Option SlotType
  | "str" | "string" => some str
  | "int" | "integer" => some int
  | "float" | "number" => some float
  | "bool" | "boolean" => some bool
  | "list" | "List" => some list
  | "any" | "Any" | "" => some any
  | _ => none

/-- What stands in the brackets of `Optional[...]`. -/
def optionalInner? (tag : List Char) : Option (List Char) :=
  (Text.dropPrefix? "Optional[".toList tag).bind (Text.dropSuffix? [']'])

theorem length_of_optionalInner? {tag inner : List Char} (h : optionalInner? tag = some inner) :
    inner.length < tag.length := by
  simp only [optionalInner?, Option.bind_eq_some_iff] at h
  obtain ⟨rest, hrest, hinner⟩ := h
  have h1 := Text.length_of_dropPrefix? hrest
  have h2 := Text.length_of_dropSuffix? hinner
  simp only [List.length_singleton] at h2
  omega

/-- The type that a tag without `Optional[...]` around it names. -/
def ofPlainTag (tag : List Char) : SlotType :=
  match named? (String.ofList tag) with
  | some ty => ty
  | none =>
    if "List[".toList.isPrefixOf tag || "list[".toList.isPrefixOf tag then list
    else object (String.ofList tag)

/-- The type that a tag names. Blanks around it and around what is optional do not
count. -/
def ofTagChars (tag : List Char) : SlotType :=
  match h : optionalInner? (Text.trim tag) with
  | some inner =>
    have : inner.length < tag.length :=
      Nat.lt_of_lt_of_le (length_of_optionalInner? h) (Text.length_trim_le tag)
    ofTagChars inner
  | none => ofPlainTag (Text.trim tag)
termination_by tag.length

def ofTag (tag : String) : SlotType := ofTagChars tag.toList

/-- Whether a value may be stored in a slot of this type. An integer will do for a
float. -/
def accepts : SlotType → Value → Bool
  | _, .none => true
  | any, _ => true
  | str, .str _ => true
  | int, .int _ => true
  | float, .float _ => true
  | float, .int _ => true
  | bool, .bool _ => true
  | list, .list _ => true
  | object _, .object _ => true
  | _, _ => false

@[simp] theorem accepts_none (ty : SlotType) : ty.accepts .none = true := by cases ty <;> rfl

def display : SlotType → String
  | str => "str"
  | int => "int"
  | float => "float"
  | bool => "bool"
  | list => "list"
  | object name => name
  | any => "Any"

def toJson : SlotType → Json
  | str => .object [("t", .string "Str")]
  | int => .object [("t", .string "Int")]
  | float => .object [("t", .string "Float")]
  | bool => .object [("t", .string "Bool")]
  | list => .object [("t", .string "List")]
  | object name => Value.tagged "Object" (.string name)
  | any => .object [("t", .string "Any")]

def ofJson? (j : Json) : Option SlotType := do
  let t ← Value.Tagged.ofJson? false j
  match t.kind, t.content with
  | "Object", some content => return object (← content.string?)
  | "Object", none => none
  | kind, _ =>
    if t.isBare then
      match kind with
      | "Str" => some str
      | "Int" => some int
      | "Float" => some float
      | "Bool" => some bool
      | "List" => some list
      | "Any" => some any
      | _ => none
    else none

end SlotType

end TaskDialogue
