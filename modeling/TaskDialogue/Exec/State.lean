import TaskDialogue.Text.Digits
import TaskDialogue.Text.Blank
import TaskDialogue.Task.Object

/-!
# The state of a conversation

Commands and entities live in a store that only grows; variables are bound to
values that may point into it. The state is a value: to keep a snapshot is to keep
it.
-/
namespace TaskDialogue

/-- The variable of a turn. -/
def varName (index : Nat) : String := "x" ++ toString index

def varIndex? (name : String) : Option Nat :=
  (Text.dropPrefix? ['x'] name.toList).bind Text.readIndex?

/-- What a turn acts on: an object of the store, or one result of a query. -/
structure TaskRef where
  id : Nat
  entity : Option Nat
deriving DecidableEq, Repr

/-- The store of a conversation and what its turns have done so far. -/
structure State where
  objects : List TaskObject
  bindings : List (String × Value)
  context : AppContext
  /-- The variables whose task was performed, each once. -/
  completed : List String
  /-- The outstanding recommendation and the variable that it is for. -/
  recommendation : Option (String × RecommendedAction)

namespace TaskObject

/-- The part of an object that a turn acts on: a result of a query, if there is one
at that place, else the object. -/
def part (o : TaskObject) (entity : Option Nat) : TaskObject :=
  match o, entity with
  | command c, some position =>
    match c.results[position]? with
    | some e => .entity e
    | none => command c
  | o, _ => o

def withPart (o : TaskObject) (entity : Option Nat) (changed : TaskObject) : TaskObject :=
  match o, entity, changed with
  | command c, some position, .entity e =>
    if position < c.results.length then command { c with results := c.results.set position e }
    else changed
  | _, _, _ => changed

end TaskObject

namespace State

def new (context : AppContext) : State := ⟨[], [], context, [], none⟩

/-- The object at a place of the store. Beyond the store there is nothing to see. -/
def object (s : State) (id : Nat) : TaskObject := s.objects.getD id (.entity ⟨"", []⟩)

/-- The place where the next object goes. -/
def nextId (s : State) : Nat := s.objects.length

/-- The state with one more object, at `nextId`. -/
def alloc (s : State) (o : TaskObject) : State := { s with objects := s.objects ++ [o] }

/-- Give a variable a value in a list of bindings. -/
def bindIn (var : String) (value : Value) : List (String × Value) → List (String × Value)
  | [] => [(var, value)]
  | (name, old) :: rest =>
    if name = var then (name, value) :: rest else (name, old) :: bindIn var value rest

/-- The value of a variable in a list of bindings. -/
def findIn (var : String) : List (String × Value) → Option Value
  | [] => none
  | (name, value) :: rest => if name = var then some value else findIn var rest

theorem findIn_bindIn (var other : String) (value : Value) (bindings : List (String × Value)) :
    findIn other (bindIn var value bindings) =
      if var = other then some value else findIn other bindings := by
  induction bindings with
  | nil => simp [bindIn, findIn]
  | cons b rest ih =>
    obtain ⟨name, old⟩ := b
    by_cases hn : name = var
    · subst hn; by_cases ho : name = other <;> simp [bindIn, findIn, ho]
    · by_cases ho : name = other
      · subst ho; simp [bindIn, findIn, hn, Ne.symm hn]
      · simp [bindIn, findIn, hn, ho, ih]

def bind (s : State) (var : String) (value : Value) : State :=
  { s with bindings := bindIn var value s.bindings }

def find? (s : State) (var : String) : Option Value := findIn var s.bindings

theorem find?_bind (s : State) (var other : String) (value : Value) :
    (s.bind var value).find? other = if var = other then some value else s.find? other :=
  findIn_bindIn _ _ _ _

def lookup (s : State) (var : String) : Except ExecError Value :=
  match s.find? var with
  | some value => .ok value
  | none => .error (.unboundVariable var)

/-- Whether one variable comes before another: by turn, those of no turn last, and by
name among equals. -/
def varBefore (a b : String) : Bool :=
  let order (name : String) := (varIndex? name).getD (Text.indexBound - 1)
  order a < order b || (order a = order b && !(b < a))

def boundVars (s : State) : List String := (s.bindings.map (·.1)).mergeSort varBefore

def command? (s : State) (var : String) : Option Command :=
  ((s.find? var).bind Value.object?).bind fun id => (s.object id).command?

def entity? (s : State) (var : String) : Option Entity :=
  ((s.find? var).bind Value.object?).bind fun id => (s.object id).entity?

/-- What `var` or `var[index]` means as the target of a turn. A query means one of
its results; nothing else takes an index. -/
def resolve (s : State) (var : String) (index : Option Int64) : Except ExecError TaskRef := do
  match ← s.lookup var with
  | .object id =>
    match s.object id with
    | .command c =>
      if c.isQuery then
        match ← c.entityIndex var index with
        | some position => .ok ⟨id, some position⟩
        | none => .error (.noEntity var)
      else if index.isSome then .error (.notIndexable var c.name)
      else .ok ⟨id, none⟩
    | .entity e =>
      if index.isSome then .error (.notIndexable var e.kind) else .ok ⟨id, none⟩
  | value => .error (.notATask var value.typeName)

/-- The object that a turn acts on. -/
def task (s : State) (target : TaskRef) : TaskObject := (s.object target.id).part target.entity

/-- The state after the object that a turn acts on has changed. -/
def setTask (s : State) (target : TaskRef) (changed : TaskObject) : State :=
  { s with
    objects := s.objects.set target.id ((s.object target.id).withPart target.entity changed) }

/-- Tell the task behind the outstanding recommendation that it was followed. -/
def followRecommendation (s : State) : State :=
  match s.recommendation with
  | none => s
  | some (var, action) =>
    match (s.find? var).bind Value.object? with
    | none => s
    | some id => { s with objects := s.objects.set id ((s.object id).notify action.name) }

/-- Note that the task of a variable was performed. -/
def complete (s : State) (var : String) : State :=
  { s with completed := if s.completed.contains var then s.completed else s.completed ++ [var] }

def isObject : Value → Bool
  | .object _ => true
  | _ => false

/-- The variables with a task or an entity that was not performed, in order. -/
def incomplete (s : State) : List String :=
  s.boundVars.filter fun var => !s.completed.contains var && (s.find? var).any isObject

end State

end TaskDialogue
