import TaskDialogue.Proofs.Store.Renaming

/-!
# States that match under a renaming

Two states match when the one has everything that the other has, at a place that a renaming tells,
and perhaps more objects that nothing in the other stands for. The places where the next objects go
belong to each other as well, so that states which match do so after the same change to both, with
the same renaming. What is read from states that match is the same up to the renaming.
-/
namespace TaskDialogue

namespace State

/-- A state holds what another one holds, at the places that a renaming tells. -/
structure Renamed (f : Nat → Nat) (s t : State) : Prop where
  injective : Function.Injective f
  objects : ∀ id, id < s.objects.length →
    f id < t.objects.length ∧ t.object (f id) = (s.object id).rename f
  bindings : t.bindings = renameNamed f s.bindings
  context : t.context = s.context
  completed : t.completed = s.completed
  recommendation : t.recommendation = s.recommendation

/-- Moreover the places beyond the two stores belong to each other in order, and the records name
no places. -/
structure Matches (f : Nat → Nat) (s t : State) : Prop extends Renamed f s t where
  beyond : ∀ k, f (s.objects.length + k) = t.objects.length + k
  literal : s.context.Literal

end State

def TaskRef.rename (f : Nat → Nat) (target : TaskRef) : TaskRef := ⟨f target.id, target.entity⟩

namespace State

variable {f : Nat → Nat} {s t : State}

theorem findIn_renameNamed (var : String) (bindings : List (String × Value)) :
    findIn var (renameNamed f bindings) = (findIn var bindings).map (Value.rename f) := by
  induction bindings with
  | nil => rfl
  | cons b rest ih =>
    simp only [renameNamed, List.map_cons, findIn] at ih ⊢
    split
    · rfl
    · exact ih

theorem bindIn_renameNamed (var : String) (v : Value) (bindings : List (String × Value)) :
    bindIn var (v.rename f) (renameNamed f bindings) = renameNamed f (bindIn var v bindings) := by
  induction bindings with
  | nil => rfl
  | cons b rest ih =>
    simp only [renameNamed, List.map_cons, bindIn] at ih ⊢
    split
    · rfl
    · rw [ih, List.map_cons]

/-- A state matches itself. -/
theorem matches_self (h : s.context.Literal) : Matches id s s where
  injective := Function.injective_id
  objects _ hid := ⟨hid, (TaskObject.rename_id _).symm⟩
  bindings := (renameNamed_id _).symm
  context := rfl
  completed := rfl
  recommendation := rfl
  beyond _ := rfl
  literal := h

namespace Matches

/-! ### What is read -/

theorem nextId (h : s.Matches f t) : t.nextId = f s.nextId := (h.beyond 0).symm

/-- Beyond the stores there is nothing to see in either. -/
theorem object (h : s.Matches f t) (id : Nat) : t.object (f id) = (s.object id).rename f := by
  by_cases hid : id < s.objects.length
  · exact (h.objects id hid).2
  · have hle : s.objects.length ≤ id := Nat.le_of_not_lt hid
    have hfid : f id = t.objects.length + (id - s.objects.length) := by
      rw [← h.beyond, Nat.add_sub_cancel' hle]
    rw [object_of_le hle, object_of_le (hfid ▸ Nat.le_add_right ..)]
    rfl

theorem find? (h : s.Matches f t) (var : String) :
    t.find? var = (s.find? var).map (Value.rename f) := by
  rw [State.find?, h.bindings, findIn_renameNamed, State.find?]

theorem lookup (h : s.Matches f t) (var : String) :
    t.lookup var = (s.lookup var).map (Value.rename f) := by
  simp only [State.lookup, h.find?]
  cases s.find? var <;> rfl

theorem task (h : s.Matches f t) (target : TaskRef) :
    t.task (target.rename f) = (s.task target).rename f := by
  rw [State.task, State.task, ← TaskObject.part_rename, ← h.object]
  rfl

theorem resolve (h : s.Matches f t) (var : String) (index : Option Int64) :
    t.resolve var index = (s.resolve var index).map (TaskRef.rename f) := by
  unfold State.resolve
  rw [h.lookup]
  cases s.lookup var with
  | error e => rfl
  | ok v =>
    cases v with
    | object id =>
      simp only [Except.map, Bind.bind, Except.bind, Value.rename_object, h.object]
      cases s.object id with
      | entity e =>
        simp only [TaskObject.rename]
        split <;> rfl
      | command c =>
        have hindex : (c.rename f).entityIndex var index = c.entityIndex var index :=
          Command.entityIndex_congr (by simp) var index
        simp only [TaskObject.rename, Command.isQuery_rename, hindex]
        split
        · cases c.entityIndex var index with
          | error e => rfl
          | ok place => cases place <;> rfl
        · split <;> rfl
    | none | bool | int | float | str | list => simp [Except.map, Bind.bind, Except.bind, Value.rename, Value.typeName]

/-! ### What is changed -/

theorem bind (h : s.Matches f t) (var : String) (v : Value) :
    (s.bind var v).Matches f (t.bind var (v.rename f)) :=
  { h with bindings := by rw [State.bind, h.bindings, bindIn_renameNamed, State.bind] }

theorem alloc (h : s.Matches f t) (o : TaskObject) :
    (s.alloc o).Matches f (t.alloc (o.rename f)) :=
  { h with
    objects := fun id hid => by
      rw [object_alloc, object_alloc]
      simp only [State.alloc, List.length_append, List.length_singleton] at hid ⊢
      by_cases hlast : id = s.objects.length
      · subst hlast
        have hnext := h.beyond 0
        simp only [Nat.add_zero] at hnext
        simp [hnext]
      · obtain ⟨hlt, hobject⟩ := h.objects id (by omega)
        rw [if_neg hlast, if_neg (Nat.ne_of_lt hlt)]
        exact ⟨by omega, hobject⟩
    beyond := fun k => by
      have hnext := h.beyond (1 + k)
      simp only [State.alloc, List.length_append, List.length_singleton]
      rw [Nat.add_assoc, Nat.add_assoc, hnext] }

/-- No two places get the same name, so that what is put at one of them is at no other. -/
theorem set (h : s.Matches f t) (place : Nat) (o : TaskObject) :
    Matches f { s with objects := s.objects.set place o }
      { t with objects := t.objects.set (f place) (o.rename f) } :=
  { h with
    objects := fun id hid => by
      rw [List.length_set] at hid
      obtain ⟨hlt, hobject⟩ := h.objects id hid
      refine ⟨by simpa using hlt, ?_⟩
      rw [object_set, object_set]
      by_cases hplace : place = id
      · simp [hplace, hid, hlt]
      · have hother : f place ≠ f id := fun heq => hplace (h.injective heq)
        simpa [hplace, hother] using hobject
    beyond := fun k => by simpa using h.beyond k }

theorem setTask (h : s.Matches f t) (target : TaskRef) (changed : TaskObject) :
    (s.setTask target changed).Matches f (t.setTask (target.rename f) (changed.rename f)) := by
  have hset := h.set target.id ((s.object target.id).withPart target.entity changed)
  rwa [← TaskObject.withPart_rename, ← h.object] at hset

theorem recommend (h : s.Matches f t) (r : Option (String × RecommendedAction)) :
    Matches f { s with recommendation := r } { t with recommendation := r } :=
  { h with recommendation := rfl }

theorem complete (h : s.Matches f t) (var : String) :
    (s.complete var).Matches f (t.complete var) :=
  { h with completed := by rw [State.complete, State.complete, h.completed] }

theorem followRecommendation (h : s.Matches f t) :
    s.followRecommendation.Matches f t.followRecommendation := by
  unfold State.followRecommendation
  rw [h.recommendation]
  split
  · exact h
  · next var action _ =>
    have hplace : (t.find? var).bind Value.object? =
        ((s.find? var).bind Value.object?).map f := by
      rw [h.find?]
      cases s.find? var <;> simp
    rw [hplace]
    cases (s.find? var).bind Value.object? with
    | none => exact h
    | some id =>
      have hset := h.set id ((s.object id).notify action.name)
      rw [← TaskObject.notify_rename, ← h.object] at hset
      simpa only [h.recommendation, Option.map_some] using hset

end Matches

end State

end TaskDialogue
