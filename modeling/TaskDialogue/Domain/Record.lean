import TaskDialogue.Syntax.Grammar
import TaskDialogue.Exec.Eval
import TaskDialogue.Domain.Spec

/-!
# Records written as query calls

A domain gives the records that it starts with as calls such as
`find_alarm(time="8:30", label="swim")`. Their values are literals, given by name.
-/
namespace TaskDialogue

/-- The callee and the arguments of a program that is nothing but a call. -/
def Program.call? (p : Program) : Option (Expr × List Expr × List Keyword) :=
  match p.single? with
  | some (.expr (.call func args keywords _) _) => some (func, args, keywords)
  | _ => none

namespace RecordCall

/-- Give the attributes of a record the values of keyword arguments. Failures are
given in words. -/
def fill (entity : String) : List Keyword → List (String × Value) →
    Except String (List (String × Value))
  | [], attributes => .ok attributes
  | ⟨arg, e, _⟩ :: rest, attributes =>
    match e.constant? with
    | none => .error (arg ++ " must be a literal")
    | some value =>
      if (Entity.find? arg attributes).isNone then
        .error (entity ++ " has no attribute " ++ arg)
      else fill entity rest (Entity.replace arg value attributes)

/-- The record that a call describes: the slots of the query in order, but for the
one that selects. -/
def read (registry : Registry) (text : String) : Except String Entity :=
  match Program.parse text with
  | .error e => .error e.message
  | .ok p =>
    match p.call? with
    | none => .error "expected a single query call"
    | some (func, args, keywords) =>
      if !args.isEmpty then .error "records take keyword arguments only"
      else
        match func.name? with
        | none => .error "call must name a query"
        | some name =>
          match registry.get? name with
          | none => .error (name ++ " is not registered")
          | some schema =>
            match schema.kind with
            | .query entity =>
              let names := (schema.slots.map (·.name)).filter (· ≠ CommandSchema.selectSlot)
              (fill entity keywords (names.map (·, .none))).map fun attributes =>
                ⟨entity, attributes⟩
            | _ => .error (name ++ " is not a query")

end RecordCall

namespace AppContext

def addRecordCall (context : AppContext) (registry : Registry) (text : String) :
    Except SchemaError Entity × AppContext :=
  match RecordCall.read registry text with
  | .ok record => (.ok record, context.insert record)
  | .error reason => (.error (.invalidRecord text reason), context)

/-- Take steps in order, up to the first that fails. -/
def stepAll {α β ε σ : Type} (step : α → σ → Except ε β × σ) : List α → σ → Except ε Unit × σ
  | [], s => (.ok (), s)
  | a :: rest, s =>
    match step a s with
    | (.error e, s) => (.error e, s)
    | (.ok _, s) => stepAll step rest s

/-- Add the records of calls in order, up to the first that fails. -/
def addRecordCalls (registry : Registry) (texts : List String) (context : AppContext) :
    Except SchemaError Unit × AppContext :=
  stepAll (fun text context => context.addRecordCall registry text) texts context

end AppContext

end TaskDialogue
