import TaskDialogue.Exec.State
import TaskDialogue.Task.Registry

/-!
# Evaluation of expressions

Literals and lists mean themselves, a name means what it is bound to,
`var.attr` and `var[index].attr` read an attribute, and a call makes a new command
and fills its slots. Every other expression is refused. Evaluation changes nothing
but the store, and that only by the commands it makes; they stay there when a later
part fails.
-/
namespace TaskDialogue

mutual

/-- The value of a literal, or of a list of which all is literal. -/
def Expr.constant? : Expr → Option Value
  | .none _ => some .none
  | .bool b _ => some (.bool b)
  | .int n _ => some (.int n)
  | .float x _ => some (.float x)
  | .str s _ => some (.str s)
  | .list es _ => (Expr.constantAll? es).map .list
  | _ => Option.none

def Expr.constantAll? : List Expr → Option (List Value)
  | [] => some []
  | e :: es =>
    match e.constant?, Expr.constantAll? es with
    | some v, some vs => some (v :: vs)
    | _, _ => Option.none

end

namespace Exec

def unsupported (e : Expr) : ExecError :=
  .unsupportedExpression <| match e with
    | .call func _ _ _ => "call on " ++ func.shape
    | .subscript _ _ _ => "subscript outside of attribute access"
    | .field base _ _ => "attribute of " ++ base.shape
    | e => e.shape

/-- The index of `var[index]`: an integer literal or `None`. -/
def subscriptIndex : Expr → Except ExecError (Option Int64)
  | .int n _ => .ok (some n)
  | .none _ => .ok none
  | e => .error (.unsupportedExpression ("index must be an integer or None, got " ++ e.shape))

/-- The item of a list that an index means. -/
def itemAt? (items : List Value) (index : Option Int64) : Option Value :=
  match index with
  | some i => if 0 ≤ i.toInt then items[i.toInt.toNat]? else none
  | none => none

/-- The value of `base.attr`. -/
def evalField (s : State) (base : Expr) (attr : String) : Except ExecError Value :=
  match base with
  | .name var _ => do
    match ← s.lookup var with
    | .object id => (s.object id).get attr
    | value => .error (.notATask var value.typeName)
  | .subscript (.name var _) index _ => do
    let index ← subscriptIndex index
    match ← s.lookup var with
    | .list items =>
      match itemAt? items index with
      | none => .error (.indexOutOfBound var (index.elim (-1) (·.toInt)) items.length)
      | some (.object id) => (s.object id).get attr
      | some item =>
        .error (.notATask (var ++ "[" ++ toString (index.elim 0 (·.toInt)) ++ "]") item.typeName)
    | _ => (s.task (← s.resolve var index)).get attr
  | _ => .error (unsupported base)

mutual

/-- The value of an expression, and the state with the commands that it made. -/
def eval (registry : Registry) : Expr → State → Except ExecError Value × State
  | .none _, s => (.ok .none, s)
  | .bool b _, s => (.ok (.bool b), s)
  | .int n _, s => (.ok (.int n), s)
  | .float x _, s => (.ok (.float x), s)
  | .str t _, s => (.ok (.str t), s)
  | .list es _, s =>
    match Expr.constantAll? es with
    | some values => (.ok (.list values), s)
    | none =>
      match evalAll registry es s with
      | (.ok values, s) => (.ok (.list values), s)
      | (.error e, s) => (.error e, s)
  | .name id _, s => (s.lookup id, s)
  | .field base attr _, s => (evalField s base attr, s)
  | .subscript base index span, s => (.error (unsupported (.subscript base index span)), s)
  | .call func args keywords span, s =>
    match func.name? with
    | none => (.error (unsupported (.call func args keywords span)), s)
    | some name =>
      match registry.build name with
      | .error e => (.error e, s)
      | .ok command =>
        let accepted := command.schema.positional
        if accepted.length < args.length then
          (.error (.tooManyPositional name args.length accepted.length), s)
        else
          match fillPositional registry args accepted command s with
          | (.error e, s) => (.error e, s)
          | (.ok command, s) =>
            match fillKeywords registry keywords command s with
            | (.error e, s) => (.error e, s)
            | (.ok command, s) => (.ok (.object s.nextId), s.alloc (.command command))

/-- The values of the items of a list, from left to right. -/
def evalAll (registry : Registry) : List Expr → State → Except ExecError (List Value) × State
  | [], s => (.ok [], s)
  | e :: es, s =>
    match eval registry e s with
    | (.error e, s) => (.error e, s)
    | (.ok value, s) =>
      match evalAll registry es s with
      | (.error e, s) => (.error e, s)
      | (.ok values, s) => (.ok (value :: values), s)

/-- Put arguments without a name into the slots that they go to. -/
def fillPositional (registry : Registry) :
    List Expr → List String → Command → State → Except ExecError Command × State
  | [], _, command, s => (.ok command, s)
  | _ :: _, [], command, s => (.ok command, s)
  | e :: es, slot :: slots, command, s =>
    match eval registry e s with
    | (.error e, s) => (.error e, s)
    | (.ok value, s) =>
      match command.set slot value with
      | .error e => (.error e, s)
      | .ok command => fillPositional registry es slots command s

def fillKeywords (registry : Registry) :
    List Keyword → Command → State → Except ExecError Command × State
  | [], command, s => (.ok command, s)
  | ⟨slot, e, _⟩ :: ks, command, s =>
    match eval registry e s with
    | (.error e, s) => (.error e, s)
    | (.ok value, s) =>
      match command.set slot value with
      | .error e => (.error e, s)
      | .ok command => fillKeywords registry ks command s

end

end Exec

end TaskDialogue
