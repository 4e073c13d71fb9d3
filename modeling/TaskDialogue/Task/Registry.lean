import TaskDialogue.Task.Command

/-!
# The commands that a turn may call

A registry has each name once, in the order of names. The five auxiliary commands
are always in it, and of several schemas with one name the first counts.
-/
namespace TaskDialogue

structure Registry where
  schemas : List CommandSchema

namespace Registry

/-- Put a schema in its place, unless its name is taken. -/
def insertInto (schema : CommandSchema) : List CommandSchema → List CommandSchema
  | [] => [schema]
  | s :: rest =>
    if s.name = schema.name then s :: rest
    else if schema.name < s.name then schema :: s :: rest
    else s :: insertInto schema rest

/-- A command of which every slot may stay empty. -/
def auxiliarySchema (name : String) (kind : CommandKind) (slots : List (String × SlotType)) :
    CommandSchema :=
  ⟨name, kind, slots.map fun s => .optional s.1 s.2, slots.map (·.1), false, none⟩

def auxiliary : List CommandSchema :=
  [auxiliarySchema "say" .say [("args", .any)],
   auxiliarySchema "hint" .hint [("message", .str), ("ref", .any)],
   auxiliarySchema "perform" .perform [("args", .any)],
   auxiliarySchema "len" .len [("args", .any)],
   auxiliarySchema "next" .next [("args", .any)]]

/-- The auxiliary commands and those of a domain. -/
def ofSchemas (domain : List CommandSchema) : Registry :=
  ⟨(auxiliary ++ domain).foldl (fun schemas s => insertInto s schemas) []⟩

def get? (r : Registry) (name : String) : Option CommandSchema := r.schemas.find? (·.name = name)

def build (r : Registry) (name : String) : Except ExecError Command :=
  match r.get? name with
  | some schema => .ok (.ofSchema schema)
  | none => .error (.unknownCommand name)

def names (r : Registry) : List String := r.schemas.map (·.name)

def signatures (r : Registry) : List String := r.schemas.map CommandSchema.signature

end Registry

end TaskDialogue
