import TaskDialogue.Proofs.Success
import TaskDialogue.Proofs.Store.References

/-!
# Writes to objects

A write gives an object another value and leaves everything else about it alone: a command
keeps its schema, its results and the notes of what was followed, an entity its kind and
the names of its attributes. Only to perform a query changes what it found. A turn acts on
a part of an object, which is one result of a query or the object as a whole.
-/
namespace TaskDialogue

namespace Command

/-- The place of a slot is that of a slot with this name. -/
theorem slots_position? {schema : CommandSchema} {attr : String} {position : Nat}
    (h : schema.position? attr = some position) :
    ∃ slot, schema.slots[position]? = some slot ∧ slot.name = attr := by
  obtain ⟨hlt, hname, _⟩ := List.findIdx?_eq_some_iff_getElem.mp h
  exact ⟨_, List.getElem?_eq_getElem hlt, by simpa using hname⟩

/-- A write sets the confirmation, or puts a value that its slot accepts into the first
slot of the name. -/
theorem set_cases {c c' : Command} {attr : String} {v : Value} (h : c.set attr v = .ok c') :
    (attr = confirmedAttr ∧ ∃ b, v = .bool b ∧ c' = { c with confirmed := b }) ∨
    (attr ≠ confirmedAttr ∧ ∃ position slot, c.schema.position? attr = some position ∧
      c.schema.slots[position]? = some slot ∧ slot.type.accepts v = true ∧
      c' = { c with values := c.values.set position v }) := by
  unfold set at h
  split at h
  · next hattr =>
    split at h
    · next b => exact .inl ⟨hattr, b, rfl, by simpa using h.symm⟩
    · simp at h
  · next hattr =>
    cases hp : c.schema.position? attr with
    | none => simp [slotPosition, hp, bind, Except.bind] at h
    | some position =>
      obtain ⟨slot, hslot, -⟩ := slots_position? hp
      have htype : (c.schema.slots.map (·.type)).getD position .any = slot.type := by
        simp [List.getD, hslot]
      simp only [slotPosition, hp, bind, Except.bind, pure, Except.pure, htype] at h
      split at h
      · next haccepts =>
        exact .inr ⟨hattr, position, slot, rfl, hslot, haccepts, by simpa using h.symm⟩
      · simp at h

/-- Only a query is changed by being performed: it takes the records that it finds, of which
there is at least one. -/
theorem perform_cases {c c' : Command} {context : AppContext} {output : Option ActionOutput}
    (h : c.perform context = .ok (output, c')) :
    (c.isQuery = false ∧ c' = c) ∨
    ∃ entity, c.schema.kind = .query entity ∧ context.records entity ≠ [] ∧
      c' = { c with results := context.records entity } := by
  unfold perform at h
  cases hkind : c.schema.kind with
  | query entity =>
    simp only [hkind] at h
    split at h
    · simp at h
    · next hfound =>
      simp only [Except.ok.injEq, Prod.mk.injEq] at h
      exact .inr ⟨entity, rfl, by simpa using hfound, h.2.symm⟩
  | intent | say | hint | perform | len | next =>
    simp only [hkind, Except.ok.injEq, Prod.mk.injEq] at h
    exact .inl ⟨by simp [isQuery, hkind, CommandKind.isQuery], h.2.symm⟩

end Command

namespace TaskObject

/-- What a write may make of an object. -/
inductive Written : TaskObject → TaskObject → Prop where
  | command {c c' : Command} (schema : c'.schema = c.schema) (results : c'.results = c.results)
      (followed : c'.followed = c.followed) : Written (command c) (command c')
  | entity {e e' : Entity} (kind : e'.kind = e.kind)
      (names : e'.attributes.map (·.1) = e.attributes.map (·.1)) : Written (entity e) (entity e')

theorem set_written {o o' : TaskObject} {attr : String} {v : Value}
    (h : o.set attr v = .ok o') : o.Written o' := by
  cases o with
  | command c =>
    obtain ⟨c', hset, rfl⟩ := map_eq_ok.mp h
    obtain ⟨_, _, _, rfl⟩ | ⟨_, _, _, _, _, _, rfl⟩ := Command.set_cases hset
    · exact .command rfl rfl rfl
    · exact .command rfl rfl rfl
  | entity e =>
    simp only [set, Entity.set?] at h
    cases hget : e.get? attr with
    | none => simp [hget] at h
    | some old =>
      simp only [hget, Option.map_some, Except.ok.injEq] at h
      subst h
      exact .entity rfl (Entity.replace_names ..)

/-- An append reads a list and writes it back with one more item. -/
theorem append_cases {o o' : TaskObject} {attr : String} {v : Value}
    (h : o.append attr v = .ok o') :
    ∃ items, o.get attr = .ok (.list items) ∧ o.set attr (.list (items ++ [v])) = .ok o' := by
  obtain ⟨value, hget, h⟩ := bind_eq_ok.mp h
  split at h
  · next items => exact ⟨items, hget, h⟩
  · simp at h

theorem append_written {o o' : TaskObject} {attr : String} {v : Value}
    (h : o.append attr v = .ok o') : o.Written o' := by
  obtain ⟨items, -, hset⟩ := append_cases h
  exact set_written hset

theorem perform_cases {o o' : TaskObject} {context : AppContext} {output : Option ActionOutput}
    (h : o.perform context = .ok (output, o')) :
    o' = o ∨ ∃ c entity, o = command c ∧ c.schema.kind = .query entity ∧
      context.records entity ≠ [] ∧ o' = command { c with results := context.records entity } := by
  cases o with
  | entity e =>
    simp only [perform, Except.ok.injEq, Prod.mk.injEq] at h
    exact .inl h.2.symm
  | command c =>
    obtain ⟨r, hc, hr⟩ := map_eq_ok.mp h
    rw [Prod.mk.injEq] at hr
    obtain ⟨-, hr'⟩ | ⟨entity, hkind, hfound, hr'⟩ := Command.perform_cases hc
    · exact .inl (by rw [← hr.2, hr'])
    · exact .inr ⟨c, entity, rfl, hkind, hfound, by rw [← hr.2, hr']⟩

@[simp] theorem part_none (o : TaskObject) : o.part none = o := by
  unfold part
  split
  · simp_all
  · rfl

@[simp] theorem withPart_none (o changed : TaskObject) : o.withPart none changed = changed := by
  cases o <;> rfl

/-! ### Results -/

/-- How many results a query keeps. Nothing else has any. -/
def resultCount : TaskObject → Nat
  | command c => c.results.length
  | entity _ => 0

/-- A result of a query is an entity. -/
theorem part_entity {o : TaskObject} {position : Nat} (h : position < o.resultCount) :
    ∃ e, o.part (some position) = entity e := by
  cases o with
  | entity e => exact ⟨e, rfl⟩
  | command c =>
    rw [TaskObject.resultCount] at h
    exact ⟨c.results[position], by simp [part, h]⟩

theorem Written.resultCount {o o' : TaskObject} (h : o.Written o') :
    o'.resultCount = o.resultCount := by
  cases h with
  | command _ results _ => simp [TaskObject.resultCount, results]
  | entity _ _ => rfl

@[simp] theorem resultCount_notify (action : String) (o : TaskObject) :
    (o.notify action).resultCount = o.resultCount := by
  cases o <;> rfl

/-- The part of a query that its results reach is the result, and all else is the whole. -/
theorem resultCount_withPart {o changed : TaskObject} {entity : Option Nat}
    (h : (o.part entity).Written changed) :
    (o.withPart entity changed).resultCount = o.resultCount := by
  unfold part at h
  split at h
  · next c position =>
    split at h
    · next e he =>
      have hlt := (List.getElem?_eq_some_iff.mp he).1
      cases h with
      | entity _ _ => simp [withPart, hlt, TaskObject.resultCount]
    · cases h with
      | command _ results _ => simp [withPart, TaskObject.resultCount, results]
  · next hne =>
    have hw : o.withPart entity changed = changed := by
      unfold withPart
      split
      · next c position e => exact absurd rfl (hne c position rfl)
      · rfl
    rw [hw]
    exact h.resultCount

end TaskObject

end TaskDialogue
