import TaskDialogue.Proofs.Store.Closure

/-!
# Checked reads

Here a read of the store is one that may fail: there is no empty object beyond the store,
and no query stands in for a result that it does not have. In a closed state these reads
succeed and agree with the ones that fall back.
-/
namespace TaskDialogue

namespace TaskObject

/-- The part of an object that a turn acts on, if it is there. -/
def part? (o : TaskObject) : Option Nat → Option TaskObject
  | none => some o
  | some position => (o.command?.bind (·.results[position]?)).map entity

/-- The object after its part was changed, if the part is there. -/
def withPart? (o : TaskObject) (changed : TaskObject) : Option Nat → Option TaskObject
  | none => some changed
  | some position =>
    match o, changed with
    | command c, entity e =>
      if position < c.results.length then
        some (command { c with results := c.results.set position e })
      else none
    | _, _ => none

theorem part?_eq {o : TaskObject} {place : Option Nat}
    (h : ∀ position, place = some position → position < o.resultCount) :
    o.part? place = some (o.part place) := by
  cases place with
  | none => simp [part?]
  | some position =>
    have hlt := h position rfl
    cases o with
    | entity e => simp [TaskObject.resultCount] at hlt
    | command c =>
      rw [TaskObject.resultCount] at hlt
      simp [part?, part, command?, hlt]

/-- What a write or a performance makes of a result is again an entity. -/
theorem withPart?_eq {o changed : TaskObject} {place : Option Nat}
    (h : ∀ position, place = some position → position < o.resultCount ∧
      ∃ e, changed = entity e) :
    o.withPart? changed place = some (o.withPart place changed) := by
  cases place with
  | none => simp [withPart?, withPart]
  | some position =>
    obtain ⟨hlt, e, rfl⟩ := h position rfl
    cases o with
    | entity e => simp [TaskObject.resultCount] at hlt
    | command c =>
      rw [TaskObject.resultCount] at hlt
      simp [withPart?, withPart, hlt]

end TaskObject

namespace State

def object? (s : State) (id : Nat) : Option TaskObject := s.objects[id]?

def task? (s : State) (target : TaskRef) : Option TaskObject :=
  (s.object? target.id).bind (·.part? target.entity)

def setTask? (s : State) (target : TaskRef) (changed : TaskObject) : Option State := do
  let o ← s.object? target.id
  let o ← o.withPart? changed target.entity
  return { s with objects := s.objects.set target.id o }

def resolve? (s : State) (var : String) (index : Option Int64) :
    Option (Except ExecError TaskRef) :=
  match s.lookup var with
  | .error e => some (.error e)
  | .ok (.object id) => do
    match ← s.object? id with
    | .command c =>
      if c.isQuery then
        match c.entityIndex var index with
        | .error e => return .error e
        | .ok (some position) => return .ok ⟨id, some position⟩
        | .ok none => return .error (.noEntity var)
      else if index.isSome then return .error (.notIndexable var c.name)
      else return .ok ⟨id, none⟩
    | .entity e =>
      if index.isSome then return .error (.notIndexable var e.kind) else return .ok ⟨id, none⟩
  | .ok value => some (.error (.notATask var value.typeName))

def followRecommendation? (s : State) : Option State :=
  match s.recommendation with
  | none => some s
  | some (var, action) =>
    match (s.find? var).bind Value.object? with
    | none => some s
    | some id => do
      let o ← s.object? id
      return { s with objects := s.objects.set id (o.notify action.name) }

variable {s : State}

theorem object?_eq {id : Nat} (h : id < s.objects.length) : s.object? id = some (s.object id) :=
  getElem?_objects h

theorem task?_eq {target : TaskRef} (h : s.Has target) : s.task? target = some (s.task target) := by
  simp only [task?, task, object?_eq h.1, Option.bind_some]
  exact TaskObject.part?_eq h.2

theorem setTask?_eq {target : TaskRef} {changed : TaskObject} (h : s.Has target)
    (hchanged : ∀ position, target.entity = some position → ∃ e, changed = .entity e) :
    s.setTask? target changed = some (s.setTask target changed) := by
  have hpart : (s.object target.id).withPart? changed target.entity =
      some ((s.object target.id).withPart target.entity changed) :=
    TaskObject.withPart?_eq fun position hp => ⟨h.2 position hp, hchanged position hp⟩
  simp [setTask?, setTask, object?_eq h.1, hpart]

/-- A target that is a result is an entity. -/
theorem task_entity {target : TaskRef} (h : s.Has target) {position : Nat}
    (hp : target.entity = some position) : ∃ e, s.task target = .entity e := by
  rw [task, hp]
  exact TaskObject.part_entity (h.2 position hp)

theorem setTask?_of_written {target : TaskRef} {changed : TaskObject} (h : s.Has target)
    (hw : (s.task target).Written changed) :
    s.setTask? target changed = some (s.setTask target changed) := by
  refine setTask?_eq h fun position hp => ?_
  obtain ⟨e, he⟩ := task_entity h hp
  rw [he] at hw
  cases hw with
  | entity _ _ => exact ⟨_, rfl⟩

theorem setTask?_of_perform {target : TaskRef} {context : AppContext}
    {output : Option ActionOutput} {changed : TaskObject} (h : s.Has target)
    (hperform : (s.task target).perform context = .ok (output, changed)) :
    s.setTask? target changed = some (s.setTask target changed) := by
  refine setTask?_eq h fun position hp => ?_
  obtain ⟨e, he⟩ := task_entity h hp
  rw [he] at hperform
  simp only [TaskObject.perform, Except.ok.injEq, Prod.mk.injEq] at hperform
  exact ⟨e, hperform.2.symm⟩

theorem resolve?_eq (h : s.Closed) (var : String) (index : Option Int64) :
    s.resolve? var index = some (s.resolve var index) := by
  cases hfind : s.lookup var with
  | error e => simp [resolve?, resolve, hfind, Bind.bind, Except.bind]
  | ok v =>
    simp only [resolve?, resolve, hfind, Bind.bind, Except.bind]
    cases v with
    | object id =>
      have hid : id < s.objects.length := Value.below_object? (h.find? (lookup_ok hfind)) rfl
      simp only [object?_eq hid, Option.bind_some]
      cases s.object id with
      | entity e => dsimp only; split <;> rfl
      | command c =>
        dsimp only
        split
        · cases c.entityIndex var index with
          | error e => rfl
          | ok found => cases found <;> rfl
        · split <;> rfl
    | none | bool _ | int _ | float _ | str _ | list _ => rfl

theorem followRecommendation?_eq (h : s.Closed) :
    s.followRecommendation? = some s.followRecommendation := by
  unfold followRecommendation? followRecommendation
  cases s.recommendation with
  | none => rfl
  | some r =>
    obtain ⟨var, action⟩ := r
    dsimp only
    cases hfind : (s.find? var).bind Value.object? with
    | none => rfl
    | some id =>
      obtain ⟨v, hv, hobject⟩ := Option.bind_eq_some_iff.mp hfind
      have hid := Value.below_object? (h.find? hv) hobject
      simp [object?_eq hid]

end State

end TaskDialogue
