import TaskDialogue.Proofs.Store.Accessors

/-!
# Closed states

A state is closed when every place that is named anywhere in it lies in its store, and the
records of the application name none. Each operation on the state keeps it closed, given
values that are closed too. In a closed state what `resolve` hands out is there: the object
is in the store and the result, if one is meant, is among those of the query.
-/
namespace TaskDialogue

/-- No record names an object. -/
def AppContext.Literal (context : AppContext) : Prop :=
  ∀ kind, ∀ e ∈ context.records kind, e.ids = []

namespace Entity

theorem below_find? {n : Nat} {attr : String} {v : Value} {attributes : List (String × Value)}
    (h : Below n (attributes.flatMap (·.2.ids))) (hv : find? attr attributes = some v) :
    Below n v.ids := by
  induction attributes with
  | nil => simp [find?] at hv
  | cons a rest ih =>
    simp only [List.flatMap_cons, Below.append] at h
    simp only [find?] at hv
    split at hv
    · simp only [Option.some.injEq] at hv
      exact hv ▸ h.1
    · exact ih h.2 hv

theorem below_replace {n : Nat} {attr : String} {v : Value} {attributes : List (String × Value)}
    (h : Below n (attributes.flatMap (·.2.ids))) (hv : Below n v.ids) :
    Below n ((replace attr v attributes).flatMap (·.2.ids)) := by
  induction attributes with
  | nil => simp [replace]
  | cons a rest ih =>
    simp only [List.flatMap_cons, Below.append] at h
    simp only [replace]
    split
    · simpa using ⟨hv, h.2⟩
    · simpa using ⟨h.1, ih h.2⟩

end Entity

namespace Command

@[simp] theorem ids_ofSchema (schema : CommandSchema) : (ofSchema schema).ids = [] := by
  simp [ids, ofSchema, Value.ids]

theorem below_ids {n : Nat} {c : Command} :
    Below n c.ids ↔ (∀ v ∈ c.values, Below n v.ids) ∧ ∀ e ∈ c.results, Below n e.ids := by
  simp [ids, Below.flatMap]

theorem below_set {n : Nat} {c c' : Command} {attr : String} {v : Value}
    (h : c.set attr v = .ok c') (hc : Below n c.ids) (hv : Below n v.ids) : Below n c'.ids := by
  obtain ⟨_, _, _, rfl⟩ | ⟨_, _, _, _, _, _, rfl⟩ := set_cases h
  · exact hc
  · rw [below_ids] at hc ⊢
    refine ⟨fun w hw => ?_, hc.2⟩
    obtain hw | rfl := List.mem_or_eq_of_mem_set hw
    · exact hc.1 w hw
    · exact hv

theorem below_get {n : Nat} {c : Command} {attr : String} {v : Value} (h : c.get attr = .ok v)
    (hc : Below n c.ids) : Below n v.ids := by
  simp only [get] at h
  split at h
  · simp only [Except.ok.injEq] at h
    simp [← h, Value.ids]
  · obtain ⟨position, -, h⟩ := bind_eq_ok.mp h
    simp only [pure, Except.pure, Except.ok.injEq] at h
    rw [← h, List.getD_eq_getElem?_getD]
    cases hv : c.values[position]? with
    | none => simp [Value.ids]
    | some w => exact (below_ids.mp hc).1 w (List.mem_of_getElem? hv)

end Command

namespace TaskObject

variable {n : Nat} {o o' : TaskObject} {attr : String} {v : Value}

theorem below_get (h : o.get attr = .ok v) (ho : Below n o.ids) : Below n v.ids := by
  cases o with
  | command c => exact Command.below_get h ho
  | entity e =>
    simp only [get] at h
    split at h
    · next w hw =>
      simp only [Except.ok.injEq] at h
      exact h ▸ Entity.below_find? ho hw
    · simp at h

theorem below_set (h : o.set attr v = .ok o') (ho : Below n o.ids) (hv : Below n v.ids) :
    Below n o'.ids := by
  cases o with
  | command c =>
    obtain ⟨c', hset, rfl⟩ := map_eq_ok.mp h
    exact Command.below_set hset ho hv
  | entity e =>
    simp only [set, Entity.set?] at h
    cases hget : e.get? attr with
    | none => simp [hget] at h
    | some old =>
      simp only [hget, Option.map_some, Except.ok.injEq] at h
      exact h ▸ Entity.below_replace ho hv

theorem below_append (h : o.append attr v = .ok o') (ho : Below n o.ids) (hv : Below n v.ids) :
    Below n o'.ids := by
  obtain ⟨items, hget, hset⟩ := append_cases h
  have hitems := below_get hget ho
  refine below_set hset ho ?_
  simp only [Value.ids_list, List.flatMap_append, Below.append] at hitems ⊢
  exact ⟨hitems, by simpa using hv⟩

theorem below_part (entity : Option Nat) (ho : Below n o.ids) : Below n (o.part entity).ids := by
  unfold part
  split
  · next c position =>
    split
    · next e he => exact (Command.below_ids.mp ho).2 e (List.mem_of_getElem? he)
    · exact ho
  · exact ho

theorem below_withPart (entity : Option Nat) (ho : Below n o.ids) (ho' : Below n o'.ids) :
    Below n (o.withPart entity o').ids := by
  unfold withPart
  split
  · next c position e =>
    split
    · simp only [ids, Command.below_ids] at ho ⊢
      refine ⟨ho.1, fun f hf => ?_⟩
      obtain hf | rfl := List.mem_or_eq_of_mem_set hf
      · exact ho.2 f hf
      · exact ho'
    · exact ho'
  · exact ho'

@[simp] theorem ids_notify (action : String) (o : TaskObject) : (o.notify action).ids = o.ids := by
  cases o <;> rfl

/-- What is found are records, which name no object. -/
theorem below_perform {context : AppContext} {output : Option ActionOutput}
    (hcontext : context.Literal) (h : o.perform context = .ok (output, o')) (ho : Below n o.ids) :
    Below n o'.ids := by
  obtain rfl | ⟨c, entity, rfl, -, -, rfl⟩ := perform_cases h
  · exact ho
  · refine Command.below_ids.mpr ⟨(Command.below_ids.mp ho).1, fun e he => ?_⟩
    rw [hcontext entity e he]
    exact Below.nil

end TaskObject

/-! ### States -/

/-- Every place that the state names lies in its store. -/
structure State.Closed (s : State) : Prop where
  objects : ∀ o ∈ s.objects, Below s.objects.length o.ids
  bindings : ∀ b ∈ s.bindings, Below s.objects.length b.2.ids
  context : s.context.Literal

namespace State

variable {s : State}

theorem closed_new {context : AppContext} (h : context.Literal) : (State.new context).Closed :=
  ⟨by simp [State.new], by simp [State.new], h⟩

namespace Closed

/-- The rest of the state names no places. -/
theorem congr (h : s.Closed) {t : State} (objects : t.objects = s.objects)
    (bindings : t.bindings = s.bindings) (context : t.context = s.context) : t.Closed :=
  ⟨by rw [objects]; exact h.objects, by rw [objects, bindings]; exact h.bindings,
    by rw [context]; exact h.context⟩

theorem object (h : s.Closed) (id : Nat) : Below s.objects.length (s.object id).ids := by
  by_cases hlt : id < s.objects.length
  · exact h.objects _ (object_mem hlt)
  · rw [object_of_le (Nat.le_of_not_lt hlt)]
    exact Below.nil

theorem task (h : s.Closed) (target : TaskRef) : Below s.objects.length (s.task target).ids :=
  TaskObject.below_part _ (h.object _)

theorem find? (h : s.Closed) {var : String} {v : Value} (hv : s.find? var = some v) :
    Below s.objects.length v.ids :=
  h.bindings _ (mem_of_find? hv)

theorem alloc (h : s.Closed) {o : TaskObject} (ho : Below s.objects.length o.ids) :
    (s.alloc o).Closed := by
  have hle : s.objects.length ≤ (s.alloc o).objects.length := by simp [State.alloc]
  refine ⟨fun p hp => ?_, fun b hb => (h.bindings b hb).mono hle, h.context⟩
  obtain hp | hp := List.mem_append.mp hp
  · exact (h.objects p hp).mono hle
  · exact (List.mem_singleton.mp hp ▸ ho).mono hle

theorem bind (h : s.Closed) {var : String} {v : Value} (hv : Below s.objects.length v.ids) :
    (s.bind var v).Closed := by
  refine ⟨h.objects, fun b hb => ?_, h.context⟩
  obtain hb | rfl := mem_bindIn hb
  · exact h.bindings b hb
  · exact hv

theorem set (h : s.Closed) (i : Nat) {o : TaskObject} (ho : Below s.objects.length o.ids) :
    { s with objects := s.objects.set i o }.Closed := by
  refine ⟨fun p hp => ?_, fun b hb => ?_, h.context⟩
  · simp only [List.length_set]
    obtain hp | rfl := List.mem_or_eq_of_mem_set hp
    · exact h.objects p hp
    · exact ho
  · simpa using h.bindings b hb

theorem setTask (h : s.Closed) (target : TaskRef) {changed : TaskObject}
    (hc : Below s.objects.length changed.ids) : (s.setTask target changed).Closed :=
  h.set _ (TaskObject.below_withPart _ (h.object _) hc)

theorem followRecommendation (h : s.Closed) : s.followRecommendation.Closed := by
  unfold State.followRecommendation
  split
  · exact h
  · split
    · exact h
    · exact h.set _ (by simpa using h.object _)

end Closed

/-- What `resolve` hands out is there. -/
theorem resolve_has (h : s.Closed) {var : String} {index : Option Int64} {target : TaskRef}
    (ht : s.resolve var index = .ok target) : s.Has target := by
  obtain ⟨hfind, hresult⟩ := resolve_targets ht
  exact ⟨Value.below_object? (h.find? hfind) rfl, hresult⟩

/-- A write takes away no object and no result. -/
theorem Has.setTask {target other : TaskRef} {changed : TaskObject} (h : s.Has target)
    (hw : (s.task other).Written changed) : (s.setTask other changed).Has target := by
  refine ⟨by simpa using h.1, fun position hp => ?_⟩
  rw [object_setTask]
  split
  · next hid =>
    obtain ⟨hid, -⟩ := hid
    rw [← hid, TaskObject.resultCount_withPart hw, hid]
    exact h.2 position hp
  · exact h.2 position hp

end State

end TaskDialogue
