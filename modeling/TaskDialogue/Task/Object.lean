import TaskDialogue.Task.Command

/-!
# Task objects

A turn acts on commands and on entities alike: it asks what they still need,
performs them, and reads and writes their attributes.
-/
namespace TaskDialogue

/-- What the store holds. -/
inductive TaskObject where
  | command (c : Command)
  | entity (e : Entity)

namespace TaskObject

/-- The name of the object's type in messages. -/
def typeName : TaskObject → String
  | command c => c.name
  | entity e => e.kind

def command? : TaskObject → Option Command
  | command c => some c
  | entity _ => none

def entity? : TaskObject → Option Entity
  | entity e => some e
  | command _ => none

/-- What the object still asks for; an entity asks for nothing. -/
def recommend? : TaskObject → Option RecommendedAction
  | command c => c.recommend?
  | entity _ => none

/-- Take the object's effect. An entity has none. -/
def perform (context : AppContext) : TaskObject →
    Except PerformError (Option ActionOutput × TaskObject)
  | command c => (c.perform context).map fun r => (r.1, command r.2)
  | entity e => .ok (none, entity e)

/-- Note that a recommendation was followed. An entity does not care. -/
def notify (action : String) : TaskObject → TaskObject
  | command c => command (c.notify action)
  | entity e => entity e

def get (attr : String) : TaskObject → Except ExecError Value
  | command c => c.get attr
  | entity e =>
    match e.get? attr with
    | some value => .ok value
    | none => .error (.unknownAttribute e.kind attr)

def set (attr : String) (value : Value) : TaskObject → Except ExecError TaskObject
  | command c => (c.set attr value).map command
  | entity e =>
    match e.set? attr value with
    | some e => .ok (entity e)
    | none => .error (.unknownAttribute e.kind attr)

/-- Put a value at the end of a list-valued attribute. -/
def append (attr : String) (value : Value) (o : TaskObject) : Except ExecError TaskObject := do
  match ← o.get attr with
  | .list items => o.set attr (.list (items ++ [value]))
  | _ => .error (.notAList o.typeName attr)

end TaskObject

end TaskDialogue
