import TaskDialogue.Proofs.Store.Checked
import TaskDialogue.Proofs.Turn.Closure

/-!
# Checked turns

The same turns with checked reads: wherever a turn looks into the store, an object or a
result that is not there ends the whole execution with nothing. That a checked turn gives
what the turn gives says that the turn never looked beyond the store, and never took a query
for one of its results.
-/
namespace TaskDialogue

/-- What a step gives, if all that it reads is there. -/
abbrev Checked (α : Type) : Type := Option (Except ExecError α × State)

namespace Checked

variable {α β : Type}

def done (a : α) (s : State) : Checked α := some (.ok a, s)

def fail (e : ExecError) (s : State) : Checked α := some (.error e, s)

/-- Go on with what a step gave, unless it failed. -/
def andThen (step : Checked α) (next : α → State → Checked β) : Checked β :=
  step.bind fun
    | (.ok a, s) => next a s
    | (.error e, s) => fail e s

@[simp] theorem andThen_error (e : ExecError) (s : State) (next : α → State → Checked β) :
    andThen (some (.error e, s)) next = some (.error e, s) := rfl

end Checked

namespace Exec

open Checked

/-! ### Evaluation -/

def evalField? (s : State) (base : Expr) (attr : String) : Option (Except ExecError Value) :=
  match base with
  | .name var _ =>
    match s.lookup var with
    | .error e => some (.error e)
    | .ok (.object id) => (s.object? id).map (·.get attr)
    | .ok value => some (.error (.notATask var value.typeName))
  | .subscript (.name var _) index _ =>
    match subscriptIndex index with
    | .error e => some (.error e)
    | .ok index =>
      match s.lookup var with
      | .error e => some (.error e)
      | .ok (.list items) =>
        match itemAt? items index with
        | none => some (.error (.indexOutOfBound var (index.elim (-1) (·.toInt)) items.length))
        | some (.object id) => (s.object? id).map (·.get attr)
        | some item =>
          some (.error (.notATask (var ++ "[" ++ toString (index.elim 0 (·.toInt)) ++ "]")
            item.typeName))
      | .ok _ => do
        match ← s.resolve? var index with
        | .error e => return .error e
        | .ok target => return (← s.task? target).get attr
  | _ => some (.error (unsupported base))

mutual

def eval? (registry : Registry) : Expr → State → Checked Value
  | .none _, s => done .none s
  | .bool b _, s => done (.bool b) s
  | .int n _, s => done (.int n) s
  | .float x _, s => done (.float x) s
  | .str t _, s => done (.str t) s
  | .list es _, s =>
    match Expr.constantAll? es with
    | some values => done (.list values) s
    | none => (evalAll? registry es s).andThen fun values s => done (.list values) s
  | .name id _, s => some (s.lookup id, s)
  | .field base attr _, s => (evalField? s base attr).map fun r => (r, s)
  | .subscript base index span, s => fail (unsupported (.subscript base index span)) s
  | .call func args keywords span, s =>
    match func.name? with
    | none => fail (unsupported (.call func args keywords span)) s
    | some name =>
      match registry.build name with
      | .error e => fail e s
      | .ok command =>
        let accepted := command.schema.positional
        if accepted.length < args.length then
          fail (.tooManyPositional name args.length accepted.length) s
        else
          (fillPositional? registry args accepted command s).andThen fun command s =>
            (fillKeywords? registry keywords command s).andThen fun command s =>
              done (.object s.nextId) (s.alloc (.command command))

def evalAll? (registry : Registry) : List Expr → State → Checked (List Value)
  | [], s => done [] s
  | e :: es, s =>
    (eval? registry e s).andThen fun value s =>
      (evalAll? registry es s).andThen fun values s => done (value :: values) s

def fillPositional? (registry : Registry) :
    List Expr → List String → Command → State → Checked Command
  | [], _, command, s => done command s
  | _ :: _, [], command, s => done command s
  | e :: es, slot :: slots, command, s =>
    (eval? registry e s).andThen fun value s =>
      match command.set slot value with
      | .error e => fail e s
      | .ok command => fillPositional? registry es slots command s

def fillKeywords? (registry : Registry) : List Keyword → Command → State → Checked Command
  | [], command, s => done command s
  | ⟨slot, e, _⟩ :: ks, command, s =>
    (eval? registry e s).andThen fun value s =>
      match command.set slot value with
      | .error e => fail e s
      | .ok command => fillKeywords? registry ks command s

end

/-! ### Classification -/

def performBinding? (s : State) (arg : Option Value) : Option (Option PerformBinding) :=
  match arg with
  | some (.object id) => do
    match ← s.object? id with
    | .entity _ => return some (.shared id)
    | .command c =>
      match c.isQuery, c.results with
      | true, [entity] => return some (.copied entity)
      | _, _ => return none
  | _ => some none

/-- The object that an argument names, if it names one. -/
def argument? (s : State) (arg : Option Value) : Option (Option TaskObject) :=
  match arg with
  | some (.object id) => (s.object? id).map some
  | _ => some none

def lenKind? (s : State) (arg : Option Value) : Option (Except ExecError CallKind) := do
  match arg, ← argument? s arg with
  | some (.list items), _ => return .ok (.value (.int (Int64.ofNat items.length)))
  | _, some (.command c) =>
    if c.isQuery then return .ok (.value (.int (Int64.ofNat c.results.length)))
    else return .error (.notIndexable "len" c.name)
  | _, some (.entity e) => return .error (.notIndexable "len" e.kind)
  | arg, none => return .error (.notIndexable "len" (arg.elim "NoneType" Value.typeName))

def nextKind? (s : State) (arg : Option Value) : Option (Except ExecError CallKind) := do
  match ← argument? s arg with
  | some (.command c) =>
    if c.isQuery then return .ok (.next c.results.head?)
    else return .error (.notIndexable "next" c.name)
  | some (.entity e) => return .error (.notIndexable "next" e.kind)
  | none => return .error (.notIndexable "next" (arg.elim "NoneType" Value.typeName))

def callKind? (s : State) (value : Value) : Option (Except ExecError CallKind) :=
  match value with
  | .object id => do
    match ← s.object? id with
    | .command c =>
      let arg := c.value? "args"
      match c.schema.kind with
      | .perform => return .ok (.perform (← performBinding? s arg))
      | .len => lenKind? s arg
      | .next => nextKind? s arg
      | _ => return .ok (.command id false)
    | .entity _ => return .ok (.value value)
  | _ => some (.ok (.value value))

def nameKind? (s : State) (value : Value) : Option CallKind :=
  match value with
  | .object id => (s.object? id).map fun o =>
    if o.command?.isSome then .command id true else .value value
  | _ => some (.value value)

def assignmentGroups? (registry : Registry) : List Expr → List Expr →
    List (String × List AttributeUpdate) → State → Checked (List (String × List AttributeUpdate))
  | target :: targets, e :: es, groups, s =>
    match assignmentTarget target with
    | .error e => fail e s
    | .ok (var, index, attr) =>
      (eval? registry e s).andThen fun value s =>
        assignmentGroups? registry targets es (addUpdate var ⟨attr, index, value⟩ groups) s
  | _, _, groups, s => done groups s

def classifyAssignment? (registry : Registry) (policy : MultiTargetPolicy) (turn : Nat)
    (targets values : List Expr) (s : State) : Checked Call :=
  (assignmentGroups? registry targets values [] s).andThen fun groups s =>
    some (selectGroup policy turn groups, s)

def classifyStmt? (registry : Registry) (policy : MultiTargetPolicy) (turn : Nat) (stmt : Stmt)
    (s : State) : Checked Call :=
  match stmt with
  | .append target value _ =>
    match appendTarget target with
    | .error e => fail e s
    | .ok (var, attr) =>
      (eval? registry value s).andThen fun value s => done (.on var turn (.append attr value)) s
  | .expr (.call func args keywords span) _ =>
    (eval? registry (.call func args keywords span) s).andThen fun value s =>
      (callKind? s value).map fun kind => (kind.map (.on (varName turn) turn ·), s)
  | .expr (.name var span) _ =>
    (eval? registry (.name var span) s).andThen fun value s =>
      (nameKind? s value).bind fun kind => done (.on var turn kind) s
  | .expr e _ =>
    (eval? registry e s).andThen fun value s => done (.on (varName turn) turn (.value value)) s
  | .assign target value _ => classifyAssignment? registry policy turn [target] [value] s
  | .tupleAssign targets values _ => classifyAssignment? registry policy turn targets values s

def classify? (registry : Registry) (policy : MultiTargetPolicy) (turn : Nat) (p : Program)
    (s : State) : Checked Call :=
  match p.body with
  | [] => fail (.parse .noExpression) s
  | [stmt] => classifyStmt? registry policy turn stmt s
  | body => fail (.parse (.severalStatements body.length)) s

/-! ### Running -/

def performOrRecommend? (var : String) (index : Nat) (target : TaskRef) (s : State) :
    Option (Except ExecError ActionResult × State) := do
  let task ← s.task? target
  match task.recommend? with
  | some action =>
    done (.recommended index action) { s with recommendation := some (var, action) }
  | none =>
    let s := { s with recommendation := none }
    match (← s.task? target).perform s.context with
    | .error cause => fail (.perform var cause) s
    | .ok (output, changed) =>
      done (.performed index output) ((← s.setTask? target changed).complete var)

def applyUpdates? (var : String) : List AttributeUpdate → Option TaskRef → State →
    Option (Except ExecError (Option TaskRef) × State)
  | [], target, s => done target s
  | update :: updates, _, s => do
    match ← s.resolve? var update.index with
    | .error e => fail e s
    | .ok target =>
      match (← s.task? target).set update.attr update.value with
      | .error e => fail e s
      | .ok changed => applyUpdates? var updates (some target) (← s.setTask? target changed)

def runKind? (var : String) (index : Nat) (kind : CallKind) (s : State) :
    Option (Except ExecError ActionResult × State) :=
  match kind with
  | .command object assigned =>
    performOrRecommend? var index ⟨object, none⟩
      (if assigned then s else s.bind var (.object object))
  | .assignment updates =>
    Checked.andThen (applyUpdates? var updates none s) fun target s =>
      match target with
      | none => done (.empty index) s
      | some target => performOrRecommend? var index target s
  | .append attr value => do
    match ← s.resolve? var none with
    | .error e => fail e s
    | .ok target =>
      match (← s.task? target).append attr value with
      | .error e => fail e s
      | .ok changed => performOrRecommend? var index target (← s.setTask? target changed)
  | .perform _ | .next _ | .value _ => some (runKind var index kind s)

def run? (call : Call) (followed : Bool) (s : State) : Checked ActionResult :=
  (if followed then s.followRecommendation? else some s).bind fun s =>
    runKind? call.var call.index call.kind s

end Exec

namespace Executor

def executeProgram? (x : Executor) (turn : Nat) (p : Program) (followed : Bool) (s : State) :
    Checked ActionResult :=
  (Exec.classify? x.registry x.options.multiTargetPolicy turn p s).andThen fun call s =>
    Exec.run? call followed s

/-- Execute a turn text with checked reads. -/
def execute? (x : Executor) (turn : Nat) (text : String) (s : State) : Checked ActionResult :=
  match x.prepare text with
  | .error e => Checked.fail (.parse e) s
  | .ok (p, followed) => x.executeProgram? turn p followed s

end Executor

end TaskDialogue
