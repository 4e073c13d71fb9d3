import TaskDialogue.Proofs.Store.Accessors

/-!
# Variables

Each turn has a variable of its own, and no two turns have the same. The tasks that are
incomplete are the bound ones that were not completed.
-/
namespace TaskDialogue

theorem toList_varName (index : Nat) : (varName index).toList = 'x' :: Nat.toDigits 10 index := by
  simp [varName, Nat.repr]

theorem varName_injective {i j : Nat} (h : varName i = varName j) : i = j := by
  have hdigits : Nat.toDigits 10 i = Nat.toDigits 10 j := by
    have hlist := congrArg String.toList h
    rw [toList_varName, toList_varName, List.cons.injEq] at hlist
    exact hlist.2
  have hread := Text.readDigits?_toDigits i
  rw [hdigits, Text.readDigits?_toDigits] at hread
  exact (Option.some.inj hread).symm

theorem varIndex?_varName_eq (index : Nat) :
    varIndex? (varName index) = Text.readIndex? (Nat.toDigits 10 index) := by
  have hdrop : Text.dropPrefix? ['x'] (varName index).toList = some (Nat.toDigits 10 index) := by
    rw [Text.dropPrefix?_eq_some_iff, toList_varName]
    rfl
  rw [varIndex?, hdrop, Option.bind_some]

/-- The index of a turn is read off its variable. -/
theorem varIndex?_varName_of_lt {index : Nat} (h : index < Text.indexBound) :
    varIndex? (varName index) = some index := by
  rw [varIndex?_varName_eq, Text.readIndex?_toDigits h]

/-- A variable of a turn belongs to no other, even if its index is too large to be read. -/
theorem varIndex?_varName {i j : Nat} (h : varIndex? (varName i) = some j) : j = i := by
  rw [varIndex?_varName_eq] at h
  unfold Text.readIndex? at h
  split at h
  · next rest heq =>
    have hplus : '+' ∈ Nat.toDigits 10 i := heq ▸ List.mem_cons_self
    exact absurd (Nat.isDigit_of_mem_toDigits (by decide) (by decide) hplus) (by decide)
  · dsimp only at h
    rw [Text.readDigits?_toDigits, Option.filter_eq_some_iff] at h
    exact (Option.some.inj h.1).symm

namespace State

variable {s : State} {v : String}

/-- A variable is incomplete when it is bound to an object and was not completed. -/
theorem mem_incomplete :
    v ∈ s.incomplete ↔ v ∉ s.completed ∧ ∃ id, s.find? v = some (.object id) := by
  have hobject : (s.find? v).any isObject = true ↔ ∃ id, s.find? v = some (.object id) := by
    cases s.find? v with
    | none => simp
    | some value => cases value <;> simp [isObject]
  have hbound : (∃ id, s.find? v = some (.object id)) → v ∈ s.boundVars := by
    rintro ⟨id, hid⟩
    simp only [boundVars, List.mem_mergeSort, List.mem_map]
    exact ⟨_, mem_of_find? hid, rfl⟩
  simp only [incomplete, List.mem_filter, Bool.and_eq_true, Bool.not_eq_true',
    List.contains_eq_mem, decide_eq_false_iff_not, hobject]
  exact ⟨fun h => h.2, fun h => ⟨hbound h.2, h⟩⟩

end State

end TaskDialogue
