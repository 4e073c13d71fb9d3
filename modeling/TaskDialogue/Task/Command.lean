import TaskDialogue.Syntax.Sugar
import TaskDialogue.Task.Schema
import TaskDialogue.Task.Action
import TaskDialogue.Task.Context
import TaskDialogue.Task.Error

/-!
# Commands

A command is one task: a schema with a value for each slot, in the order of the
slots. A query also keeps the entities that it found when it was last performed.
-/
namespace TaskDialogue

/-- What is missing from a command. -/
inductive SlotStatus where
  /-- The first required slot without a value. -/
  | needsValue (slot : String)
  | needsConfirmation
  | ready
deriving DecidableEq, Repr

/-- A task with its slots. -/
structure Command where
  schema : CommandSchema
  values : List Value
  confirmed : Bool
  results : List Entity
  /-- The recommendations that this task was told were followed. -/
  followed : List String

namespace Command

/-- A command with empty slots. -/
def ofSchema (schema : CommandSchema) : Command :=
  ⟨schema, schema.slots.map fun _ => .none, false, [], []⟩

def name (c : Command) : String := c.schema.name

def isQuery (c : Command) : Bool := c.schema.kind.isQuery

def value? (c : Command) (slot : String) : Option Value :=
  (c.schema.position? slot).bind (c.values[·]?)

def filledSlots (c : Command) : List (String × Value) :=
  ((c.schema.slots.zip c.values).filter (! ·.2.isNone)).map fun s => (s.1.name, s.2)

/-- Required slots are asked for first, in order, and the confirmation last. -/
def slotStatus (c : Command) : SlotStatus :=
  match (c.schema.slots.zip c.values).find? fun s => s.1.required && s.2.isNone with
  | some (slot, _) => .needsValue slot.name
  | none =>
    if c.schema.confirmationRequired && !c.confirmed then .needsConfirmation else .ready

/-- What the task still asks for. -/
def recommend? (c : Command) : Option RecommendedAction :=
  match c.slotStatus with
  | .needsValue slot => some (.askValue slot)
  | .needsConfirmation => some .askConfirmation
  | .ready => none

/-- The place of the result that an index means. Without results there is none, a
single result is meant by any index, and several need an index in range. -/
def entityIndex (c : Command) (var : String) (index : Option Int64) :
    Except ExecError (Option Nat) :=
  match c.results, index with
  | [], _ => .ok none
  | [_], _ => .ok (some 0)
  | _, none => .error (.multipleEntities var)
  | results, some i =>
    if 0 ≤ i.toInt ∧ i.toInt < results.length then .ok (some i.toInt.toNat)
    else .error (.indexOutOfBound var i.toInt results.length)

/-- The place of a slot, by the first one of the name. -/
def slotPosition (c : Command) (attr : String) : Except ExecError Nat :=
  match c.schema.position? attr with
  | some position => .ok position
  | none => .error (.unknownAttribute c.name attr)

/-- The value of a slot, or the confirmation. -/
def get (c : Command) (attr : String) : Except ExecError Value :=
  if attr = confirmedAttr then .ok (.bool c.confirmed)
  else do
    let position ← c.slotPosition attr
    return c.values.getD position .none

/-- The command with another value in a slot, or with the confirmation given or
taken back. The value must be of the slot's type. -/
def set (c : Command) (attr : String) (value : Value) : Except ExecError Command :=
  if attr = confirmedAttr then
    match value with
    | .bool confirmed => .ok { c with confirmed }
    | other => .error (.slotType c.name attr "bool" other.typeName)
  else do
    let position ← c.slotPosition attr
    let type := (c.schema.slots.map (·.type)).getD position .any
    if type.accepts value then return { c with values := c.values.set position value }
    else .error (.slotType c.name attr type.display value.typeName)

/-- Take the effect of the task on the application. A query finds all records of its
entity and fails when there are none. -/
def perform (c : Command) (context : AppContext) :
    Except PerformError (Option ActionOutput × Command) :=
  match c.schema.kind with
  | .intent => .ok (some (.inform "Success"), c)
  | .query entity =>
    let found := context.records entity
    if found.isEmpty then .error (.noRecords entity)
    else
      let listed := "; ".intercalate (found.map Entity.display)
      .ok (some (.informList ("Found " ++ entity ++ ": " ++ listed) found), { c with results := found })
  | .say | .hint | .perform | .len | .next => .ok (none, c)

/-- Note that a recommendation was followed. -/
def notify (c : Command) (action : String) : Command := { c with followed := c.followed ++ [action] }

end Command

end TaskDialogue
