import TaskDialogue.Exec.Call

/-!
# The protocol of tasks

A call is applied to the state. A task of which something is missing recommends the
next step and waits; otherwise it is performed. A call that fails keeps what it did
before it failed.
-/
namespace TaskDialogue.Exec

/-- Recommend what a task still asks for, or perform it. -/
def performOrRecommend (var : String) (index : Nat) (target : TaskRef) (s : State) :
    Except ExecError ActionResult × State :=
  match (s.task target).recommend? with
  | some action => (.ok (.recommended index action), { s with recommendation := some (var, action) })
  | none =>
    let s := { s with recommendation := none }
    match (s.task target).perform s.context with
    | .error cause => (.error (.perform var cause), s)
    | .ok (output, changed) => (.ok (.performed index output), (s.setTask target changed).complete var)

/-- Make the writes of an assignment, each on the object that its index means. The
last of these objects is the target of the turn. -/
def applyUpdates (var : String) : List AttributeUpdate → Option TaskRef → State →
    Except ExecError (Option TaskRef) × State
  | [], target, s => (.ok target, s)
  | update :: updates, _, s =>
    match s.resolve var update.index with
    | .error e => (.error e, s)
    | .ok target =>
      match (s.task target).set update.attr update.value with
      | .error e => (.error e, s)
      | .ok changed => applyUpdates var updates (some target) (s.setTask target changed)

/-- Bind a copy of an entity, or `None` when there is none. -/
def bindCopy (var : String) (entity : Option Entity) (s : State) : Value × State :=
  match entity with
  | none => (.none, s.bind var .none)
  | some e => (.object s.nextId, (s.alloc (.entity e)).bind var (.object s.nextId))

def runKind (var : String) (index : Nat) (kind : CallKind) (s : State) :
    Except ExecError ActionResult × State :=
  match kind with
  | .command object assigned =>
    let s := if assigned then s else s.bind var (.object object)
    performOrRecommend var index ⟨object, none⟩ s
  | .perform none => (.ok (.empty index), s)
  | .perform (some (.shared id)) => (.ok (.empty index), s.bind var (.object id))
  | .perform (some (.copied entity)) => (.ok (.empty index), (bindCopy var (some entity) s).2)
  | .assignment updates =>
    match applyUpdates var updates none s with
    | (.error e, s) => (.error e, s)
    | (.ok none, s) => (.ok (.empty index), s)
    | (.ok (some target), s) => performOrRecommend var index target s
  | .append attr value =>
    match s.resolve var none with
    | .error e => (.error e, s)
    | .ok target =>
      match (s.task target).append attr value with
      | .error e => (.error e, s)
      | .ok changed => performOrRecommend var index target (s.setTask target changed)
  | .next entity =>
    let (value, s) := bindCopy var entity s
    (.ok (.performed index (some (.value value))), s)
  | .value value => (.ok (.performed index (some (.value value))), s.bind var value)

/-- Apply a call. A turn that follows the recommendation tells its task first. -/
def run (call : Call) (followed : Bool) (s : State) : Except ExecError ActionResult × State :=
  runKind call.var call.index call.kind (if followed then s.followRecommendation else s)

end TaskDialogue.Exec
