import TaskDialogue.Exec.Eval

/-!
# From statements to calls

A turn is one statement, and each statement is one call of six kinds:

* `x0.items.append(v)` appends;
* `perform(x1)` and `next(x1)` bind a result of a query;
* `create_alarm(...)`, and `x3` bound to a command, run the protocol of a command;
* `x0.a = v` and `x0.a, x1.b = v, w` assign;
* everything else gives a value.

The expressions within are evaluated here, so a command that is made stays in the
store even when the turn fails later.
-/
namespace TaskDialogue

/-- What becomes of an assignment to fields of several variables. -/
inductive MultiTargetPolicy where
  /-- The variable with most writes is kept, of several the first. -/
  | mostUpdated
  /-- The turn fails. -/
  | reject
deriving DecidableEq, Repr, Inhabited

namespace MultiTargetPolicy

def display : MultiTargetPolicy → String
  | mostUpdated => "most_updated"
  | reject => "reject"

def ofName? : String → Option MultiTargetPolicy
  | "most_updated" => some mostUpdated
  | "reject" => some reject
  | _ => none

def ofJson? (j : Json) : Option MultiTargetPolicy := (j.bareKind? false).bind ofName?

end MultiTargetPolicy

/-- One write of an assignment. -/
structure AttributeUpdate where
  attr : String
  index : Option Int64
  value : Value
deriving DecidableEq

/-- The entity that `perform(x)` binds. -/
inductive PerformBinding where
  /-- `x` was that entity. -/
  | shared (id : Nat)
  /-- `x` was a query with a single result, which is copied. -/
  | copied (entity : Entity)
deriving DecidableEq

inductive CallKind where
  /-- Run the protocol of a command; `assigned` when a variable holds it already. -/
  | command (object : Nat) (assigned : Bool)
  | perform (entity : Option PerformBinding)
  | assignment (updates : List AttributeUpdate)
  | append (attr : String) (value : Value)
  | next (entity : Option Entity)
  | value (value : Value)
deriving DecidableEq

def CallKind.name : CallKind → String
  | command _ _ => "command"
  | perform _ => "perform"
  | assignment _ => "assignment"
  | append _ _ => "append"
  | next _ => "next"
  | value _ => "value"

/-- What a turn does: to which variable, and the index that its result reports. -/
structure Call where
  var : String
  index : Nat
  kind : CallKind
deriving DecidableEq

namespace Call

/-- A call on a variable. It reports the turn of that variable, or the current turn
when the name belongs to none. -/
def on (var : String) (turn : Nat) (kind : CallKind) : Call := ⟨var, (varIndex? var).getD turn, kind⟩

end Call

namespace Exec

/-- The entity that `perform(x)` binds, given the value of `x`. -/
def performBinding (s : State) (arg : Option Value) : Option PerformBinding :=
  match arg with
  | some (.object id) =>
    match s.object id with
    | .entity _ => some (.shared id)
    | .command c =>
      match c.isQuery, c.results with
      | true, [entity] => some (.copied entity)
      | _, _ => none
  | _ => none

/-- The type of a value as `len` and `next` name what they refuse. -/
def argTypeName (s : State) : Option Value → String
  | none => "NoneType"
  | some (.object id) => (s.object id).typeName
  | some value => value.typeName

/-- The command of an argument, if it is a query. -/
def queryArg? (s : State) : Option Value → Option Command
  | some (.object id) => (s.object id).command?.filter Command.isQuery
  | _ => none

/-- The number of results of a query, or of items of a list. -/
def resultCount (s : State) (arg : Option Value) : Except ExecError Nat :=
  match arg, queryArg? s arg with
  | some (.list items), _ => .ok items.length
  | _, some c => .ok c.results.length
  | _, none => .error (.notIndexable "len" (argTypeName s arg))

/-- The first result of a query, if it has one. -/
def firstResult (s : State) (arg : Option Value) : Except ExecError (Option Entity) :=
  match queryArg? s arg with
  | some c => .ok c.results.head?
  | none => .error (.notIndexable "next" (argTypeName s arg))

/-- What a call to a command does, once the command is made. -/
def callKind (s : State) (value : Value) : Except ExecError CallKind :=
  match value with
  | .object id =>
    match s.object id with
    | .command c =>
      let arg := c.value? "args"
      match c.schema.kind with
      | .perform => .ok (.perform (performBinding s arg))
      | .len => (resultCount s arg).map fun n => .value (.int (Int64.ofNat n))
      | .next => (firstResult s arg).map .next
      | _ => .ok (.command id false)
    | .entity _ => .ok (.value value)
  | _ => .ok (.value value)

/-- What a bare name does, given its value. -/
def nameKind (s : State) (value : Value) : CallKind :=
  match value with
  | .object id => if (s.object id).command?.isSome then .command id true else .value value
  | _ => .value value

def unsupportedTarget (target : Expr) : ExecError :=
  .unsupportedExpression ("cannot assign to " ++ target.shape)

/-- The parts of `var.attr` and `var[index].attr`. -/
def assignmentTarget (target : Expr) : Except ExecError (String × Option Int64 × String) :=
  match target with
  | .field (.name var _) attr _ => .ok (var, none, attr)
  | .field (.subscript (.name var _) index _) attr _ => do
    return (var, ← subscriptIndex index, attr)
  | _ => .error (unsupportedTarget target)

/-- The parts of `var.attr`. -/
def appendTarget (target : Expr) : Except ExecError (String × String) :=
  match target with
  | .field (.name var _) attr _ => .ok (var, attr)
  | _ => .error (unsupportedTarget target)

/-- Add a write to the group of its variable. -/
def addUpdate (var : String) (update : AttributeUpdate) :
    List (String × List AttributeUpdate) → List (String × List AttributeUpdate)
  | [] => [(var, [update])]
  | (name, updates) :: rest =>
    if name = var then (name, updates ++ [update]) :: rest
    else (name, updates) :: addUpdate var update rest

/-- The writes of an assignment by variable, in the order in which the variables
appear. Values without a target and targets without a value are left out. -/
def assignmentGroups (registry : Registry) : List Expr → List Expr →
    List (String × List AttributeUpdate) → State →
    Except ExecError (List (String × List AttributeUpdate)) × State
  | target :: targets, e :: es, groups, s =>
    match assignmentTarget target with
    | .error e => (.error e, s)
    | .ok (var, index, attr) =>
      match eval registry e s with
      | (.error e, s) => (.error e, s)
      | (.ok value, s) =>
        assignmentGroups registry targets es (addUpdate var ⟨attr, index, value⟩ groups) s
  | _, _, groups, s => (.ok groups, s)

/-- The writes that a turn makes: those of the variable with most, and of several the
first. -/
def selectGroup (policy : MultiTargetPolicy) (turn : Nat)
    (groups : List (String × List AttributeUpdate)) : Except ExecError Call :=
  if policy = .reject ∧ 1 < groups.length then
    .error (.crossVariableAssignment (groups.map (·.1)))
  else
    let most := (groups.map (·.2.length)).foldl max 0
    match groups.find? (·.2.length = most) with
    | some (var, updates) => .ok (.on var turn (.assignment updates))
    | none => .error (.parse .noExpression)

/-- The call of an assignment of values to targets. -/
def classifyAssignment (registry : Registry) (policy : MultiTargetPolicy) (turn : Nat)
    (targets values : List Expr) (s : State) : Except ExecError Call × State :=
  match assignmentGroups registry targets values [] s with
  | (.error e, s) => (.error e, s)
  | (.ok groups, s) => (selectGroup policy turn groups, s)

def classifyStmt (registry : Registry) (policy : MultiTargetPolicy) (turn : Nat) (stmt : Stmt)
    (s : State) : Except ExecError Call × State :=
  match stmt with
  | .append target value _ =>
    match appendTarget target with
    | .error e => (.error e, s)
    | .ok (var, attr) =>
      match eval registry value s with
      | (.error e, s) => (.error e, s)
      | (.ok value, s) => (.ok (.on var turn (.append attr value)), s)
  | .expr (.call func args keywords span) _ =>
    match eval registry (.call func args keywords span) s with
    | (.error e, s) => (.error e, s)
    | (.ok value, s) => ((callKind s value).map (.on (varName turn) turn ·), s)
  | .expr (.name var span) _ =>
    match eval registry (.name var span) s with
    | (.error e, s) => (.error e, s)
    | (.ok value, s) => (.ok (.on var turn (nameKind s value)), s)
  | .expr e _ =>
    match eval registry e s with
    | (.error e, s) => (.error e, s)
    | (.ok value, s) => (.ok (.on (varName turn) turn (.value value)), s)
  | .assign target value _ => classifyAssignment registry policy turn [target] [value] s
  | .tupleAssign targets values _ => classifyAssignment registry policy turn targets values s

/-- The call of a program, which must be a single statement. -/
def classify (registry : Registry) (policy : MultiTargetPolicy) (turn : Nat) (p : Program)
    (s : State) : Except ExecError Call × State :=
  match p.body with
  | [] => (.error (.parse .noExpression), s)
  | [stmt] => classifyStmt registry policy turn stmt s
  | body => (.error (.parse (.severalStatements body.length)), s)

end Exec

end TaskDialogue
