import TaskDialogue.Exec.Eval

/-!
# References into the store

Values name objects by their place in the store, alone or within lists, and so do the
slots of commands and the attributes of entities. Here the places are collected, and each
operation on objects is described by what becomes of them: a write brings in those of the
written value and no others, and never changes how many results a query has.
-/
namespace TaskDialogue

/-- All of these places lie in a store of `n` objects. -/
def Below (n : Nat) (ids : List Nat) : Prop := ∀ id ∈ ids, id < n

namespace Below

variable {n m : Nat} {ids others : List Nat}

@[simp] theorem nil : Below n [] := by simp [Below]

@[simp] theorem cons {id : Nat} : Below n (id :: ids) ↔ id < n ∧ Below n ids := by simp [Below]

@[simp] theorem append : Below n (ids ++ others) ↔ Below n ids ∧ Below n others := by
  simp [Below, or_imp, forall_and]

theorem flatMap {α : Type} {xs : List α} {f : α → List Nat} :
    Below n (xs.flatMap f) ↔ ∀ x ∈ xs, Below n (f x) := by
  simp only [Below, List.mem_flatMap]
  exact ⟨fun h x hx id hid => h id ⟨x, hx, hid⟩, fun h id ⟨x, hx, hid⟩ => h x hx id hid⟩

/-- A store that has grown has the old places too. -/
theorem mono (h : Below n ids) (hnm : n ≤ m) : Below m ids :=
  fun id hid => Nat.lt_of_lt_of_le (h id hid) hnm

end Below

/-! ### Places in values, entities and commands -/

mutual

/-- The places that a value names, at any depth. -/
def Value.ids : Value → List Nat
  | .list items => Value.idsAll items
  | .object id => [id]
  | .none | .bool _ | .int _ | .float _ | .str _ => []

def Value.idsAll : List Value → List Nat
  | [] => []
  | item :: rest => item.ids ++ Value.idsAll rest

end

def Entity.ids (e : Entity) : List Nat := e.attributes.flatMap (·.2.ids)

/-- The places in the slots of a command and in what it found. -/
def Command.ids (c : Command) : List Nat := c.values.flatMap Value.ids ++ c.results.flatMap Entity.ids

def TaskObject.ids : TaskObject → List Nat
  | .command c => c.ids
  | .entity e => e.ids

theorem Value.idsAll_eq (items : List Value) : idsAll items = items.flatMap ids := by
  induction items with
  | nil => rfl
  | cons item rest ih => simp [idsAll, ih]

@[simp] theorem Value.ids_list (items : List Value) : (list items).ids = items.flatMap ids :=
  idsAll_eq items

@[simp] theorem Value.ids_object (id : Nat) : (object id).ids = [id] := rfl

theorem Value.below_object? {n id : Nat} {v : Value} (h : Below n v.ids)
    (hv : v.object? = some id) : id < n := by
  cases v <;> simp_all [object?]

mutual

/-- A literal names no place. -/
theorem Expr.ids_constant? : ∀ {e : Expr} {v : Value}, e.constant? = some v → v.ids = []
  | .list es _, v, h => by
    simp only [constant?, Option.map_eq_some_iff] at h
    obtain ⟨values, hvalues, rfl⟩ := h
    simpa [List.flatMap_eq_nil_iff] using ids_constantAll? hvalues
  | .none _, _, h | .bool _ _, _, h | .int _ _, _, h | .float _ _, _, h | .str _ _, _, h => by
    simp only [constant?, Option.some.injEq] at h
    subst h
    rfl
  | .name _ _, _, h | .field _ _ _, _, h | .subscript _ _ _, _, h | .call _ _ _ _, _, h => by
    simp [constant?] at h

theorem Expr.ids_constantAll? :
    ∀ {es : List Expr} {vs : List Value}, constantAll? es = some vs → ∀ v ∈ vs, v.ids = []
  | [], vs, h => by
    simp only [constantAll?, Option.some.injEq] at h
    simp [← h]
  | e :: es, vs, h => by
    simp only [constantAll?] at h
    split at h
    · next v rest he hes =>
      simp only [Option.some.injEq] at h
      subst h
      simpa using ⟨ids_constant? he, ids_constantAll? hes⟩
    · simp at h

end

end TaskDialogue
