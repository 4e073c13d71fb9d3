import TaskDialogue.Proofs.Store.Writes

/-!
# Reading the state after it changed

What is read from the state after each of its operations, in terms of what was read before.
Places beyond the store hold the same empty entity, before and after. What `resolve` hands
out is what its variable is bound to, or one result of it.
-/
namespace TaskDialogue

namespace Command

/-- The place of a result is in range. -/
theorem lt_of_entityIndex {c : Command} {var : String} {index : Option Int64} {position : Nat}
    (h : c.entityIndex var index = .ok (some position)) : position < c.results.length := by
  unfold entityIndex at h
  split at h
  · simp at h
  · next e he =>
    simp only [Except.ok.injEq, Option.some.injEq] at h
    simp [he, ← h]
  · simp at h
  · split at h
    · next hi =>
      simp only [Except.ok.injEq, Option.some.injEq] at h
      omega
    · simp at h

variable {c : Command} {var : String} {i : Int64}

theorem entityIndex_nil (h : c.results = []) (index : Option Int64) :
    c.entityIndex var index = .ok none := by
  unfold entityIndex
  split <;> simp_all

theorem entityIndex_single {e : Entity} (h : c.results = [e]) (index : Option Int64) :
    c.entityIndex var index = .ok (some 0) := by
  unfold entityIndex
  split <;> simp_all

theorem entityIndex_several (h : 1 < c.results.length) :
    c.entityIndex var none = .error (.multipleEntities var) := by
  unfold entityIndex
  split <;> simp_all

/-- An index in range means the result at its place, whether there are others or not. -/
theorem entityIndex_within (hi : 0 ≤ i.toInt) (hlt : i.toInt < c.results.length) :
    c.entityIndex var (some i) = .ok (some i.toInt.toNat) := by
  unfold entityIndex
  split
  · next h =>
    rw [h, List.length_nil] at hlt
    omega
  · next h =>
    have hzero : i.toInt.toNat = 0 := by
      rw [h, List.length_singleton] at hlt
      omega
    rw [hzero]
  · simp_all
  · simp_all

theorem entityIndex_outside (h : 1 < c.results.length)
    (hi : ¬(0 ≤ i.toInt ∧ i.toInt < c.results.length)) :
    c.entityIndex var (some i) = .error (.indexOutOfBound var i.toInt c.results.length) := by
  unfold entityIndex
  split <;> simp_all

end Command

namespace State

variable {s : State} {id : Nat}

theorem object_eq {o : TaskObject} (h : s.objects[id]? = some o) : s.object id = o := by
  simp [object, List.getD, h]

theorem getElem?_objects (h : id < s.objects.length) : s.objects[id]? = some (s.object id) := by
  simp [object, List.getD, List.getElem?_eq_getElem h]

theorem object_mem (h : id < s.objects.length) : s.object id ∈ s.objects :=
  List.mem_of_getElem? (getElem?_objects h)

theorem object_of_le (h : s.objects.length ≤ id) : s.object id = .entity ⟨"", []⟩ := by
  simp [object, List.getD, List.getElem?_eq_none h]

theorem command?_eq_some {v : String} {c : Command} :
    s.command? v = some c ↔ ∃ id, s.find? v = some (.object id) ∧ s.object id = .command c := by
  simp only [command?, Option.bind_eq_some_iff]
  constructor
  · rintro ⟨id, ⟨value, hfind, hvalue⟩, hobject⟩
    refine ⟨id, ?_, ?_⟩
    · cases value <;> simp_all [Value.object?]
    · cases ho : s.object id <;> simp_all [TaskObject.command?]
  · rintro ⟨id, hfind, hobject⟩
    exact ⟨id, ⟨_, hfind, rfl⟩, by rw [hobject]; rfl⟩

theorem lt_of_object_command {c : Command} (h : s.object id = .command c) :
    id < s.objects.length := by
  rw [← Nat.not_le]
  intro hle
  rw [object_of_le hle] at h
  cases h

theorem object_append {made : List TaskObject} (h : id < s.objects.length) :
    { s with objects := s.objects ++ made }.object id = s.object id := by
  simp [object, List.getD, List.getElem?_append_left h]

theorem object_alloc (s : State) (o : TaskObject) (id : Nat) :
    (s.alloc o).object id = if id = s.objects.length then o else s.object id := by
  simp only [object, alloc, List.getD, List.getElem?_append]
  by_cases hlt : id < s.objects.length
  · simp [hlt, Nat.ne_of_lt hlt]
  · by_cases heq : id = s.objects.length
    · simp [heq]
    · have hne : id - s.objects.length ≠ 0 := by omega
      simp [hlt, heq, hne]

theorem object_set (s : State) (o : TaskObject) (i id : Nat) :
    { s with objects := s.objects.set i o }.object id =
      if i = id ∧ id < s.objects.length then o else s.object id := by
  simp only [object, List.getD, List.getElem?_set]
  by_cases hi : i = id
  · subst hi
    by_cases hlt : i < s.objects.length <;> simp [hlt]
  · simp [hi]

theorem object_setTask (s : State) (target : TaskRef) (changed : TaskObject) (id : Nat) :
    (s.setTask target changed).object id =
      if target.id = id ∧ id < s.objects.length then (s.object id).withPart target.entity changed
      else s.object id := by
  rw [setTask, object_set]
  by_cases h : target.id = id
  · subst h; rfl
  · simp [h]

theorem object_setTask_none (h : id < s.objects.length) (changed : TaskObject) :
    (s.setTask ⟨id, none⟩ changed).object id = changed := by
  rw [object_setTask, if_pos ⟨rfl, h⟩, TaskObject.withPart_none]

@[simp] theorem length_setTask (s : State) (target : TaskRef) (changed : TaskObject) :
    (s.setTask target changed).objects.length = s.objects.length := by
  simp [setTask]

@[simp] theorem length_followRecommendation (s : State) :
    s.followRecommendation.objects.length = s.objects.length := by
  unfold followRecommendation
  split
  · rfl
  · split <;> simp

/-- To follow a recommendation adds a note to the task that it is for. -/
theorem object_followRecommendation (s : State) (id : Nat) :
    s.followRecommendation.object id = s.object id ∨
    ∃ var action, s.recommendation = some (var, action) ∧ s.find? var = some (.object id) ∧
      s.followRecommendation.object id = (s.object id).notify action.name := by
  unfold followRecommendation
  split
  · exact .inl rfl
  · next var action hrec =>
    split
    · exact .inl rfl
    · next i hi =>
      rw [object_set]
      split
      · next h =>
        obtain ⟨rfl, -⟩ := h
        refine .inr ⟨var, action, hrec, ?_, rfl⟩
        obtain ⟨v, hv, hobject⟩ := Option.bind_eq_some_iff.mp hi
        cases v <;> simp_all [Value.object?]
      · exact .inl rfl

@[simp] theorem bindings_followRecommendation (s : State) :
    s.followRecommendation.bindings = s.bindings := by
  unfold followRecommendation
  split
  · rfl
  · split <;> rfl

@[simp] theorem completed_followRecommendation (s : State) :
    s.followRecommendation.completed = s.completed := by
  unfold followRecommendation
  split
  · rfl
  · split <;> rfl

@[simp] theorem recommendation_followRecommendation (s : State) :
    s.followRecommendation.recommendation = s.recommendation := by
  unfold followRecommendation
  split
  · rfl
  · split <;> rfl

@[simp] theorem mem_complete {var v : String} :
    v ∈ (s.complete var).completed ↔ v ∈ s.completed ∨ v = var := by
  simp only [complete, List.contains_iff_mem]
  split
  · next h => exact ⟨.inl, fun hv => hv.elim id fun hv => hv ▸ h⟩
  · simp

theorem lookup_ok {var : String} {v : Value} (h : s.lookup var = .ok v) :
    s.find? var = some v := by
  unfold lookup at h
  split at h <;> simp_all

theorem mem_of_find? {var : String} {v : Value} (h : s.find? var = some v) :
    (var, v) ∈ s.bindings := by
  obtain ⟨objects, bindings, context, completed, recommendation⟩ := s
  simp only [find?] at h ⊢
  induction bindings with
  | nil => simp [findIn] at h
  | cons b rest ih =>
    obtain ⟨name, old⟩ := b
    simp only [findIn] at h
    split at h
    · next hn =>
      simp only [Option.some.injEq] at h
      simp [hn, h]
    · exact List.mem_cons_of_mem _ (ih h)

theorem mem_bindIn {var : String} {v : Value} {bindings : List (String × Value)}
    {b : String × Value} (h : b ∈ bindIn var v bindings) : b ∈ bindings ∨ b = (var, v) := by
  induction bindings with
  | nil => simpa [bindIn] using h
  | cons a rest ih =>
    obtain ⟨name, old⟩ := a
    simp only [bindIn] at h
    split at h
    · next hn =>
      obtain rfl | h := List.mem_cons.mp h
      · exact .inr (by rw [hn])
      · exact .inl (List.mem_cons_of_mem _ h)
    · obtain rfl | h := List.mem_cons.mp h
      · exact .inl List.mem_cons_self
      · exact (ih h).imp (List.mem_cons_of_mem _) id

/-- A target is an object that a variable is bound to, or one result of it when it is a
query. -/
theorem resolve_cases {var : String} {index : Option Int64} {target : TaskRef}
    (h : s.resolve var index = .ok target) :
    s.find? var = some (.object target.id) ∧
    ((∃ c position, s.object target.id = .command c ∧ c.isQuery = true ∧
        c.entityIndex var index = .ok (some position) ∧ target.entity = some position) ∨
      (index = none ∧ target.entity = none ∧
        ∀ c, s.object target.id = .command c → c.isQuery = false)) := by
  obtain ⟨v, hfind, h⟩ := bind_eq_ok.mp h
  split at h
  · next id =>
    split at h
    · next c hc =>
      split at h
      · next hquery =>
        obtain ⟨found, hfound, h⟩ := bind_eq_ok.mp h
        split at h
        · next position =>
          simp only [Except.ok.injEq] at h
          subst h
          exact ⟨lookup_ok hfind, .inl ⟨c, position, hc, hquery, hfound, rfl⟩⟩
        · simp at h
      · next hquery =>
        split at h
        · simp at h
        · next hindex =>
          simp only [Except.ok.injEq] at h
          subst h
          refine ⟨lookup_ok hfind, .inr ⟨by simpa using hindex, rfl, fun d hd => ?_⟩⟩
          rw [hc, TaskObject.command.injEq] at hd
          exact hd ▸ by simpa using hquery
    · next e he =>
      split at h
      · simp at h
      · next hindex =>
        simp only [Except.ok.injEq] at h
        subst h
        exact ⟨lookup_ok hfind, .inr ⟨by simpa using hindex, rfl, by simp [he]⟩⟩
  · simp at h

/-- A target of a variable: the object that it is bound to, or a result that this object has. -/
def Targets (s : State) (var : String) (target : TaskRef) : Prop :=
  s.find? var = some (.object target.id) ∧
    ∀ position, target.entity = some position → position < (s.object target.id).resultCount

theorem resolve_targets {var : String} {index : Option Int64} {target : TaskRef}
    (h : s.resolve var index = .ok target) : s.Targets var target := by
  obtain ⟨hfind, hpart⟩ := resolve_cases h
  refine ⟨hfind, fun position hp => ?_⟩
  obtain ⟨c, found, hc, -, hindex, he⟩ | ⟨-, he, -⟩ := hpart
  · have hlt := Command.lt_of_entityIndex hindex
    rw [he, Option.some.injEq] at hp
    simpa [hc, TaskObject.resultCount, ← hp] using hlt
  · simp [he] at hp

/-- A target is there: its object is in the store, and the result that it means, if any, is
among those of the query. -/
def Has (s : State) (target : TaskRef) : Prop :=
  target.id < s.objects.length ∧
    ∀ position, target.entity = some position → position < (s.object target.id).resultCount

end State

end TaskDialogue
