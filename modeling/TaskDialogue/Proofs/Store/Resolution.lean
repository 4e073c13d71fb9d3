import TaskDialogue.Proofs.Store.Accessors

/-!
# What a variable means after a write

A write changes neither the schema of a command nor the number of its results, nor the kind of
an entity. So each variable means after it what it meant before, in every write of an
assignment.
-/
namespace TaskDialogue

/-- Two objects that a variable bound to them would mean the same by. -/
inductive TaskObject.Alike : TaskObject → TaskObject → Prop where
  | command {c c' : Command} (schema : c'.schema = c.schema)
      (results : c'.results.length = c.results.length) : Alike (command c) (command c')
  | entity {e e' : Entity} (kind : e'.kind = e.kind) : Alike (entity e) (entity e')

namespace TaskObject

theorem Alike.refl (o : TaskObject) : o.Alike o := by
  cases o with
  | command c => exact .command rfl rfl
  | entity e => exact .entity rfl

theorem Written.alike {o o' : TaskObject} (h : o.Written o') : o.Alike o' := by
  cases h with
  | command schema results _ => exact .command schema (by rw [results])
  | entity kind _ => exact .entity kind

/-- An object is alike after one of its parts was written to. -/
theorem alike_withPart {o changed : TaskObject} {entity : Option Nat}
    (h : (o.part entity).Written changed) : o.Alike (o.withPart entity changed) := by
  cases o with
  | entity e =>
    have hpart : (TaskObject.entity e).part entity = .entity e := by cases entity <;> rfl
    have hwith : (TaskObject.entity e).withPart entity changed = changed := by
      cases entity <;> rfl
    rw [hpart] at h
    rw [hwith]
    exact h.alike
  | command c =>
    cases entity with
    | none =>
      rw [part_none] at h
      exact h.alike
    | some position =>
      simp only [part] at h
      split at h
      · next e he =>
        have hlt := (List.getElem?_eq_some_iff.mp he).1
        cases h with
        | entity _ _ =>
          simp only [withPart, hlt, if_true]
          exact .command rfl (by simp)
      · cases h with
        | command schema results _ => exact .command schema (by rw [results])

end TaskObject

theorem Command.entityIndex_congr {c c' : Command} (h : c'.results.length = c.results.length)
    (var : String) (index : Option Int64) : c'.entityIndex var index = c.entityIndex var index := by
  unfold entityIndex
  match hc : c.results, hc' : c'.results, index with
  | [], [], _ => rfl
  | [_], [_], _ => rfl
  | _ :: _ :: _, _ :: _ :: _, none => rfl
  | _ :: _ :: _, _ :: _ :: _, some i =>
    rw [hc, hc'] at h
    simp only [h]
  | [], _ :: _, _ | _ :: _, [], _ | [_], _ :: _ :: _, _ | _ :: _ :: _, [_], _ =>
    rw [hc, hc'] at h
    simp at h

namespace State

variable {s t : State} {var : String} {target : TaskRef} {changed : TaskObject}

/-- A variable means the same where it has the same value and the objects are alike. -/
theorem resolve_congr (hfind : t.find? var = s.find? var)
    (hobjects : ∀ id, (s.object id).Alike (t.object id)) (index : Option Int64) :
    t.resolve var index = s.resolve var index := by
  simp only [resolve, lookup, hfind]
  cases s.find? var with
  | none => rfl
  | some v =>
    cases v with
    | object id =>
      have halike := hobjects id
      simp only [Bind.bind, Except.bind]
      generalize s.object id = o at halike ⊢
      generalize t.object id = o' at halike ⊢
      cases halike with
      | command schema results =>
        simp only [Command.isQuery, Command.name, schema, Command.entityIndex_congr results]
        rfl
      | entity kind => simp only [kind]
    | none | bool | int | float | str | list => rfl

theorem alike_setTask (hw : (s.task target).Written changed) (id : Nat) :
    (s.object id).Alike ((s.setTask target changed).object id) := by
  rw [object_setTask]
  split
  · next h =>
    obtain ⟨rfl, -⟩ := h
    exact TaskObject.alike_withPart hw
  · exact .refl _

/-- A variable means after a write what it meant before. -/
theorem resolve_setTask (hw : (s.task target).Written changed) (var : String)
    (index : Option Int64) :
    (s.setTask target changed).resolve var index = s.resolve var index := by
  have hfind : (s.setTask target changed).find? var = s.find? var := rfl
  exact resolve_congr hfind (alike_setTask hw) index

end State

end TaskDialogue
