import TaskDialogue.Json.Shape
import TaskDialogue.Task.Schema

/-!
# Descriptors of intents and entities

A domain describes its tasks in JSON. The arguments of an intent are kept as they
were written and only read when the intent becomes a command.
-/
namespace TaskDialogue

open Json (Fault Shape Fields)

/-- Why a domain cannot be built. -/
inductive SchemaError where
  | io (path : String) (cause : String)
  | json (fault : Fault)
  | invalidArg (owner arg reason : String)
  | missingEntityName (intent : String)
  | invalidRecord (text reason : String)
deriving DecidableEq, Repr

def SchemaError.message : SchemaError → String
  | io path cause => "failed to read schema file " ++ path ++ ": " ++ cause
  | json fault => "invalid schema JSON: " ++ fault.message
  | invalidArg owner arg reason => "argument '" ++ arg ++ "' of " ++ owner ++ " is invalid: " ++ reason
  | missingEntityName intent => "intent " ++ intent ++ " needs an entity_name to derive its query"
  | invalidRecord text reason => "invalid record '" ++ text ++ "': " ++ reason

structure ArgSpec where
  type : String
  optional : Bool
  values : List Json
  disambiguation : Bool

namespace ArgSpec

def shape : Shape :=
  .record "ArgSpec" <|
    .cons "type" true .text <|
    .cons "optional" false .flag <|
    .cons "values" false (.list .any) <|
    .cons "disambiguation" false .flag .nil

def ofJson (j : Json) : Except Fault ArgSpec :=
  (shape.ofJson j).map fun (type, optional, values, disambiguation, _) =>
    ⟨type, optional, values, disambiguation⟩

end ArgSpec

/-- A task of the domain. -/
structure IntentSpec where
  command : String
  /-- The arguments by name, in the order of declaration. -/
  args : List (String × Json)
  confirmationRequired : Bool
  description : Option String
  queryIntent : Bool
  entityName : Option String
  positional : List String

namespace IntentSpec

def shape : Shape :=
  .record "IntentSpec" <|
    .cons "command" true .text <|
    .cons "args" false .table <|
    .cons "confirmation_required" false .flag <|
    .cons "description" false (.optional .text) <|
    .cons "query_intent" false .flag <|
    .cons "entity_name" false (.optional .text) <|
    .cons "positional" false (.list .text) .nil

def ofCarrier : shape.Carrier → IntentSpec :=
  fun (command, args, confirmationRequired, description, queryIntent, entityName, positional, _) =>
    ⟨command, args, confirmationRequired, description, queryIntent, entityName, positional⟩

def ofJson (j : Json) : Except SchemaError IntentSpec :=
  match shape.ofJson j with
  | .ok value => .ok (ofCarrier value)
  | .error fault => .error (.json fault)

/-- The descriptor with its fields in the order of declaration. -/
def toJson (i : IntentSpec) : Json :=
  Json.objectOf
    [("command", some (.string i.command)), ("args", some (.object i.args)),
     ("confirmation_required", some (.bool i.confirmationRequired)),
     ("description", i.description.map .string), ("query_intent", some (.bool i.queryIntent)),
     ("entity_name", i.entityName.map .string),
     ("positional", if i.positional.isEmpty then none else some (Json.ofStrings i.positional))]

/-- The arguments with their descriptors read, in order. -/
def argSpecs (i : IntentSpec) : Except SchemaError (List (String × ArgSpec)) :=
  i.args.mapM fun (name, raw) =>
    match ArgSpec.ofJson raw with
    | .ok spec => .ok (name, spec)
    | .error fault => .error (.invalidArg i.command name fault.message)

def slot (name : String) (spec : ArgSpec) : SlotSchema :=
  ⟨name, .ofTag spec.type, !spec.optional, spec.values, spec.disambiguation⟩

/-- The command of an intent. Its positional parameters must be arguments of it. -/
def toSchema (i : IntentSpec) : Except SchemaError CommandSchema := do
  let slots := (← i.argSpecs).map fun a => slot a.1 a.2
  match i.positional.find? fun name => !slots.any (·.name = name) with
  | some name =>
    .error (.invalidArg i.command name "positional parameter is not a declared argument")
  | none =>
    .ok ⟨Text.snakeCase i.command, .intent, slots, i.positional, i.confirmationRequired,
      i.description⟩

/-- The entity that an intent stores: its arguments and a date. -/
def toEntity (i : IntentSpec) : Except SchemaError EntitySchema :=
  match i.entityName with
  | none => .error (.missingEntityName i.command)
  | some name => do
    let attributes := (← i.argSpecs).map fun a => (a.1, SlotType.ofTag a.2.type)
    return ⟨name, attributes ++ [("date_of_" ++ name, .str)]⟩

end IntentSpec

structure EntitySpec where
  entity : String
  attributes : List (String × Json)

namespace EntitySpec

def shape : Shape :=
  .record "EntitySpec" <| .cons "entity" true .text <| .cons "attributes" false .table .nil

def ofCarrier : shape.Carrier → EntitySpec := fun (entity, attributes, _) => ⟨entity, attributes⟩

def ofJson (j : Json) : Except SchemaError EntitySpec :=
  match shape.ofJson j with
  | .ok value => .ok (ofCarrier value)
  | .error fault => .error (.json fault)

def toJson (e : EntitySpec) : Json :=
  .object [("entity", .string e.entity), ("attributes", .object e.attributes)]

/-- The entity with the types of its attributes read. -/
def toSchema (e : EntitySpec) : Except SchemaError EntitySchema := do
  let attributes ← e.attributes.mapM fun (name, raw) =>
    match (raw.field? "type").bind Json.string? with
    | some type => .ok (name, SlotType.ofTag type)
    | none => .error (.invalidArg e.entity name "missing \"type\"")
  return ⟨e.entity, attributes⟩

end EntitySpec

end TaskDialogue
