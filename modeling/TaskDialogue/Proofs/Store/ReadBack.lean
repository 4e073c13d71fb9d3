import TaskDialogue.Proofs.Store.Resolution
import TaskDialogue.Proofs.Store.Typing

/-!
# Reading what was written

What was written to a field of a task is read from it again: of an entity always, and of a command
when it has a value for each of its slots. The part of an object that was changed is the changed
part, and an object is not changed by the part that it has.
-/
namespace TaskDialogue

namespace Command

variable {registry : Registry} {c c' : Command} {attr : String} {v : Value}

theorem WellTyped.get_set (hc : c.WellTyped registry) (h : c.set attr v = .ok c') :
    c'.get attr = .ok v := by
  obtain ⟨rfl, b, rfl, rfl⟩ | ⟨hattr, position, slot, hposition, hslot, -, rfl⟩ := set_cases h
  · rfl
  · have hlt : position < c.values.length := by
      rw [hc.length]
      exact (List.getElem?_eq_some_iff.mp hslot).1
    simp [get, hattr, slotPosition, hposition, bind, Except.bind, pure, Except.pure,
      List.getD_eq_getElem?_getD, hlt]

end Command

namespace TaskObject

variable {registry : Registry} {context : AppContext} {o changed : TaskObject}
  {place : Option Nat} {attr : String} {v : Value}

theorem Typed.get_set (h : o.Typed registry context) (hset : o.set attr v = .ok changed) :
    changed.get attr = .ok v := by
  cases h with
  | command typed _ =>
    obtain ⟨c', hc', rfl⟩ := map_eq_ok.mp hset
    exact typed.get_set hc'
  | @entity e _ =>
    simp only [TaskObject.set, Entity.set?, Entity.get?] at hset
    cases hfind : Entity.find? attr e.attributes with
    | none => simp [hfind] at hset
    | some old =>
      simp only [hfind, Option.map_some, Except.ok.injEq] at hset
      subst hset
      simp [TaskObject.get, Entity.get?, Entity.find?_replace, hfind]

theorem withPart_part (o : TaskObject) (place : Option Nat) : o.withPart place (o.part place) = o := by
  cases o with
  | entity e => cases place <;> rfl
  | command c =>
    cases place with
    | none => rfl
    | some position =>
      simp only [part]
      split
      · next e he =>
        obtain ⟨hlt, hposition⟩ := List.getElem?_eq_some_iff.mp he
        simp only [withPart, hlt, if_true, ← hposition, List.set_getElem_self]
      · rfl

/-- A part that was written to is what it was made into. -/
theorem part_withPart (h : (o.part place).Written changed) :
    (o.withPart place changed).part place = changed := by
  cases o with
  | entity e =>
    have hpart : (TaskObject.entity e).part place = .entity e := by cases place <;> rfl
    rw [hpart] at h
    cases h with
    | entity _ _ => cases place <;> rfl
  | command c =>
    cases place with
    | none =>
      rw [part_none] at h
      cases h with
      | command _ _ _ => rfl
    | some position =>
      simp only [part] at h
      split at h
      · next e he =>
        have hlt := (List.getElem?_eq_some_iff.mp he).1
        cases h with
        | entity _ _ => simp [withPart, hlt, part]
      · next hnone =>
        cases h with
        | @command _ c' _ results _ => simp [withPart, part, results, hnone]

end TaskObject

namespace State

variable {registry : Registry} {context : AppContext} {s : State} {target : TaskRef}
  {changed : TaskObject} {attr : String} {v : Value}

theorem setTask_task (s : State) (target : TaskRef) : s.setTask target (s.task target) = s := by
  have hobjects : s.objects.set target.id (s.object target.id) = s.objects := by
    by_cases hlt : target.id < s.objects.length
    · obtain ⟨_, hobject⟩ := List.getElem?_eq_some_iff.mp (getElem?_objects hlt)
      rw [← hobject, List.set_getElem_self]
    · exact List.set_eq_of_length_le (Nat.le_of_not_lt hlt)
  rw [setTask, task, TaskObject.withPart_part, hobjects]

theorem task_setTask (hlt : target.id < s.objects.length) (hw : (s.task target).Written changed) :
    (s.setTask target changed).task target = changed := by
  rw [task, object_setTask, if_pos ⟨rfl, hlt⟩]
  exact TaskObject.part_withPart hw

theorem Typed.task (h : s.Typed registry context) (hlt : target.id < s.objects.length) :
    (s.task target).Typed registry context :=
  (h.object hlt).part target.entity

/-- What is written to a target is read from it. -/
theorem Typed.get_setTask (h : s.Typed registry context) (hlt : target.id < s.objects.length)
    (hset : (s.task target).set attr v = .ok changed) :
    ((s.setTask target changed).task target).get attr = .ok v := by
  rw [task_setTask hlt (TaskObject.set_written hset), (h.task hlt).get_set hset]

end State

end TaskDialogue
