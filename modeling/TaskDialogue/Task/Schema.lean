import TaskDialogue.Text.SnakeCase
import TaskDialogue.Task.SlotType

/-!
# Schemas of commands and entities

A schema lists the slots of a command in order. Slot names need not differ; a name
means the first slot that has it.
-/
namespace TaskDialogue

/-- What a command does when it is performed. -/
inductive CommandKind where
  /-- A task of the domain; performing it reports success. -/
  | intent
  /-- Looks up the records of an entity. -/
  | query (entity : String)
  /-- Hands values to whoever speaks to the user. -/
  | say
  /-- A recommendation that the application shows. -/
  | hint
  /-- Marks that a task was performed, or takes up its only result. -/
  | perform
  /-- Counts the results of a query or the items of a list. -/
  | len
  /-- The first result of a query. -/
  | next
deriving DecidableEq, Repr, Inhabited

namespace CommandKind

def isQuery : CommandKind → Bool
  | query _ => true
  | _ => false

def toJson : CommandKind → Json
  | intent => .object [("t", .string "intent")]
  | query entity => .object [("t", .string "query"), ("entity", .string entity)]
  | say => .object [("t", .string "say")]
  | hint => .object [("t", .string "hint")]
  | perform => .object [("t", .string "perform")]
  | len => .object [("t", .string "len")]
  | next => .object [("t", .string "next")]

def ofJson? (j : Json) : Option CommandKind := do
  let (kind, body) ← j.tagged? "t"
  if kind = "query" then
    let [some entity] ← body.record? ["entity"] | none
    return query (← entity.string?)
  let [] ← body.record? [] | none
  match kind with
  | "intent" => some intent
  | "say" => some say
  | "hint" => some hint
  | "perform" => some perform
  | "len" => some len
  | "next" => some next
  | _ => none

end CommandKind

structure SlotSchema where
  name : String
  type : SlotType
  required : Bool
  /-- Example values that the domain declares. -/
  values : List Json
  disambiguation : Bool
deriving Inhabited

namespace SlotSchema

def optional (name : String) (type : SlotType) : SlotSchema := ⟨name, type, false, [], false⟩

def toJson (s : SlotSchema) : Json :=
  Json.objectOf
    [("name", some (.string s.name)), ("ty", some s.type.toJson), ("required", some (.bool s.required)),
     ("values", if s.values.isEmpty then none else some (.array s.values)),
     ("disambiguation", some (.bool s.disambiguation))]

def ofJson? (j : Json) : Option SlotSchema := do
  let [some name, some type, some required, values, disambiguation] ←
    j.record? ["name", "ty", "required", "values", "disambiguation"] | none
  return {
    name := ← name.string?
    type := ← SlotType.ofJson? type
    required := ← required.bool?
    values := ← match values with | none => some [] | some v => v.array?
    disambiguation := ← match disambiguation with | none => some false | some d => d.bool? }

end SlotSchema

/-- What a command is made from. -/
structure CommandSchema where
  name : String
  kind : CommandKind
  slots : List SlotSchema
  /-- The slots that arguments without a name go to, in order. -/
  positional : List String
  confirmationRequired : Bool
  description : Option String
deriving Inhabited

/-- The attributes of an entity with their types, in order. -/
structure EntitySchema where
  name : String
  attributes : List (String × SlotType)
deriving DecidableEq

namespace CommandSchema

def position? (schema : CommandSchema) (slot : String) : Option Nat :=
  schema.slots.findIdx? (·.name = slot)

def requiredSlots (schema : CommandSchema) : List String :=
  (schema.slots.filter (·.required)).map (·.name)

/-- Name, slots and types as a caller sees them. -/
def signature (schema : CommandSchema) : String :=
  schema.name ++ "(" ++
    ", ".intercalate (schema.slots.map fun s => s.name ++ ": " ++ s.type.display) ++ ")"

/-- The name of the slot that every derived query starts with. -/
def selectSlot : String := "select"

/-- The query over an entity: its attributes as slots, and none of them required. -/
def query (entity : EntitySchema) : CommandSchema where
  name := Text.snakeCase ("find_" ++ entity.name)
  kind := .query entity.name
  slots := .optional selectSlot .str :: entity.attributes.map fun a => .optional a.1 a.2
  positional := []
  confirmationRequired := false
  description := some ("Searches for existing " ++ entity.name ++ " in the database")

def toJson (schema : CommandSchema) : Json :=
  Json.objectOf
    [("name", some (.string schema.name)), ("kind", some schema.kind.toJson),
     ("slots", some (.array (schema.slots.map SlotSchema.toJson))),
     ("positional", some (Json.ofStrings schema.positional)),
     ("confirmation_required", some (.bool schema.confirmationRequired)),
     ("description", schema.description.map .string)]

def ofJson? (j : Json) : Option CommandSchema := do
  let [some name, some kind, some slots, positional, confirmation, description] ← j.record?
    ["name", "kind", "slots", "positional", "confirmation_required", "description"] | none
  return {
    name := ← name.string?
    kind := ← CommandKind.ofJson? kind
    slots := ← (← slots.array?).mapM SlotSchema.ofJson?
    positional := ← match positional with | none => some [] | some p => p.strings?
    confirmationRequired := ← match confirmation with | none => some false | some c => c.bool?
    description := ← match description with
      | none | some .null => some none
      | some d => d.string?.map some }

end CommandSchema

end TaskDialogue
