import Mathlib.Data.List.Sort
import TaskDialogue.Transcript.Conversation
import TaskDialogue.Proofs.Store.Variables

/-!
# Variables in order

A state keeps its bindings and what was completed in no particular order. They are listed by the
index of their turns: names of variables, each once, come out strictly increasing, and in whichever
order the state has them the list is the same.
-/
namespace TaskDialogue

/-- Names of variables whose turns have indices of their type. -/
def AreVariables (names : List String) : Prop := ∀ v ∈ names, ∃ i < Text.indexBound, v = varName i

/-- Variables in the order of their turns, each once. -/
def Increasing (names : List String) : Prop :=
  ∃ indices : List Nat, names = indices.map varName ∧ indices.Pairwise (· < ·)

/-- A comparison that goes by the indices of variables. -/
def ByIndex (before : String → String → Bool) : Prop :=
  ∀ i j, i < Text.indexBound → j < Text.indexBound →
    before (varName i) (varName j) = decide (i ≤ j)

theorem byIndex_completedBefore : ByIndex Conversation.completedBefore := by
  intro i j hi hj
  simp only [Conversation.completedBefore, varIndex?_varName_of_lt hi, varIndex?_varName_of_lt hj]

theorem byIndex_varBefore : ByIndex State.varBefore := by
  intro i j hi hj
  simp only [State.varBefore, varIndex?_varName_of_lt hi, varIndex?_varName_of_lt hj,
    Option.getD_some]
  obtain hlt | rfl | hgt := Nat.lt_trichotomy i j
  · simp [hlt, hlt.le]
  · simp
  · simp [hgt.not_gt, hgt.ne', hgt.not_ge]

section

variable {names others : List String} {before : String → String → Bool}

theorem AreVariables.perm (h : AreVariables names) (hperm : others.Perm names) :
    AreVariables others := fun v hv => h v (hperm.mem_iff.mp hv)

theorem AreVariables.map_indices (h : AreVariables names) :
    (names.filterMap varIndex?).map varName = names := by
  induction names with
  | nil => rfl
  | cons v names ih =>
    obtain ⟨⟨i, hi, rfl⟩, hrest⟩ := List.forall_mem_cons.mp h
    rw [List.filterMap_cons, varIndex?_varName_of_lt hi, List.map_cons, ih hrest]

/-- To sort variables by index is to sort their indices. -/
theorem AreVariables.mergeSort_eq (h : AreVariables names) (hbefore : ByIndex before) :
    names.mergeSort before =
      ((names.filterMap varIndex?).mergeSort (· ≤ ·)).map varName := by
  have hbound : ∀ i ∈ names.filterMap varIndex?, i < Text.indexBound := by
    intro i hi
    obtain ⟨v, hv, hindex⟩ := List.mem_filterMap.mp hi
    obtain ⟨j, hj, rfl⟩ := h v hv
    rw [varIndex?_varName_of_lt hj] at hindex
    exact Option.some.inj hindex ▸ hj
  rw [List.map_mergeSort fun i hi j hj => (hbefore i j (hbound i hi) (hbound j hj)).symm,
    h.map_indices]

theorem AreVariables.increasing_mergeSort (h : AreVariables names) (hbefore : ByIndex before)
    (hnodup : names.Nodup) : Increasing (names.mergeSort before) := by
  refine ⟨_, h.mergeSort_eq hbefore, ?_⟩
  have hsorted := List.pairwise_mergeSort' (· ≤ ·) (names.filterMap varIndex?)
  have hdistinct : ((names.filterMap varIndex?).mergeSort (· ≤ ·)).Nodup := by
    rw [(List.mergeSort_perm _ _).nodup_iff]
    exact .of_map varName (by rwa [h.map_indices])
  exact hsorted.imp₂ (fun _ _ hle hne => Nat.lt_of_le_of_ne hle hne) hdistinct

/-- The order in which variables are given does not matter. -/
theorem AreVariables.mergeSort_perm (h : AreVariables names) (hbefore : ByIndex before)
    (hperm : others.Perm names) : others.mergeSort before = names.mergeSort before := by
  rw [h.mergeSort_eq hbefore, (h.perm hperm).mergeSort_eq hbefore]
  congr 1
  exact ((List.mergeSort_perm _ _).trans ((hperm.filterMap varIndex?).trans
    (List.mergeSort_perm _ _).symm)).eq_of_pairwise'
      (List.pairwise_mergeSort' (· ≤ ·) _) (List.pairwise_mergeSort' (· ≤ ·) _)

theorem Increasing.filter (h : Increasing names) (p : String → Bool) :
    Increasing (names.filter p) := by
  obtain ⟨indices, rfl, hincreasing⟩ := h
  exact ⟨indices.filter (p ∘ varName), List.filter_map, hincreasing.filter _⟩

end

namespace State

/-- What is bound are variables of the given turns, each bound once, and what is completed is
bound, and noted once. -/
structure Listed (turns : List Nat) (s : State) : Prop where
  bound : ∀ v, (s.find? v).isSome → ∃ i ∈ turns, v = varName i
  completed : ∀ v ∈ s.completed, (s.find? v).isSome
  names : (s.bindings.map (·.1)).Nodup
  once : s.completed.Nodup

variable {s : State} {turns : List Nat}

theorem listed_new (context : AppContext) : (new context).Listed [] where
  bound := by simp [new, find?, findIn]
  completed := by simp [new]
  names := List.nodup_nil
  once := List.nodup_nil

theorem Listed.mono (h : s.Listed turns) {more : List Nat} (hmore : turns ⊆ more) :
    s.Listed more where
  __ := h
  bound v hv := by
    obtain ⟨i, hi, rfl⟩ := h.bound v hv
    exact ⟨i, hmore hi, rfl⟩

/-- In bindings of different names, what a name is bound to is told by any one of them. -/
theorem findIn_eq_some_iff {bindings : List (String × Value)} (h : (bindings.map (·.1)).Nodup)
    {v : String} {value : Value} : findIn v bindings = some value ↔ (v, value) ∈ bindings := by
  induction bindings with
  | nil => simp [findIn]
  | cons b rest ih =>
    obtain ⟨name, old⟩ := b
    obtain ⟨hnew, hrest⟩ := List.nodup_cons.mp h
    by_cases hname : name = v
    · subst hname
      have hnone : (name, value) ∉ rest := fun hmem => hnew (List.mem_map_of_mem (f := (·.1)) hmem)
      simp [findIn, hnone, eq_comm]
    · simp [findIn, hname, Ne.symm hname, ih hrest]

theorem isSome_find?_iff {v : String} : (s.find? v).isSome ↔ v ∈ s.bindings.map (·.1) := by
  rw [find?]
  induction s.bindings with
  | nil => simp [findIn]
  | cons b rest ih =>
    obtain ⟨name, old⟩ := b
    by_cases hname : name = v
    · simp [findIn, hname]
    · simp [findIn, hname, Ne.symm hname, ih]

theorem names_bindIn (v : String) (value : Value) (bindings : List (String × Value)) :
    (bindIn v value bindings).map (·.1) =
      if v ∈ bindings.map (·.1) then bindings.map (·.1) else bindings.map (·.1) ++ [v] := by
  induction bindings with
  | nil => rfl
  | cons b rest ih =>
    obtain ⟨name, old⟩ := b
    by_cases hname : name = v
    · simp [bindIn, hname]
    · by_cases hrest : v ∈ rest.map (·.1)
      · rw [if_pos hrest] at ih
        rw [List.map_cons, if_pos (List.mem_cons_of_mem _ hrest)]
        simp [bindIn, hname, ih]
      · rw [if_neg hrest] at ih
        rw [List.map_cons, if_neg (by simpa [Ne.symm hname] using hrest)]
        simp [bindIn, hname, ih]

/-- To bind a variable keeps names different. -/
theorem nodup_bind (h : (s.bindings.map (·.1)).Nodup) (v : String) (value : Value) :
    ((s.bind v value).bindings.map (·.1)).Nodup := by
  rw [bind, names_bindIn]
  split
  · exact h
  · next hnew => exact List.nodup_append_comm.mpr (List.nodup_cons.mpr ⟨hnew, h⟩)

theorem nodup_complete (h : s.completed.Nodup) (v : String) : (s.complete v).completed.Nodup := by
  simp only [complete, List.contains_iff_mem]
  split
  · exact h
  · next hnew => exact List.nodup_append_comm.mpr (List.nodup_cons.mpr ⟨hnew, h⟩)

theorem Listed.areVariables (h : s.Listed turns) (hturns : ∀ i ∈ turns, i < Text.indexBound) :
    AreVariables (s.bindings.map (·.1)) ∧ AreVariables s.completed := by
  have hbound : ∀ v, (s.find? v).isSome → ∃ i < Text.indexBound, v = varName i := by
    intro v hv
    obtain ⟨i, hi, rfl⟩ := h.bound v hv
    exact ⟨i, hturns i hi, rfl⟩
  exact ⟨fun v hv => hbound v (isSome_find?_iff.mpr hv), fun v hv => hbound v (h.completed v hv)⟩

theorem Listed.increasing_incomplete (h : s.Listed turns)
    (hturns : ∀ i ∈ turns, i < Text.indexBound) : Increasing s.incomplete :=
  ((h.areVariables hturns).1.increasing_mergeSort byIndex_varBefore h.names).filter _

/-- The order of bindings and of completed variables does not tell in what is incomplete. -/
theorem Listed.incomplete_perm (h : s.Listed turns) (hturns : ∀ i ∈ turns, i < Text.indexBound)
    {bindings : List (String × Value)} {completed : List String}
    (hbindings : bindings.Perm s.bindings) (hcompleted : completed.Perm s.completed) :
    incomplete { s with bindings, completed } = s.incomplete := by
  have hfind : ∀ v, find? { s with bindings, completed } v = s.find? v := by
    intro v
    have hnames := (hbindings.map (·.1)).nodup_iff.mpr h.names
    refine Option.ext fun value => ?_
    rw [find?, find?, findIn_eq_some_iff hnames, findIn_eq_some_iff h.names, hbindings.mem_iff]
  have hcontains : ∀ v, completed.contains v = s.completed.contains v := fun v => by
    rw [Bool.eq_iff_iff, List.contains_iff_mem, List.contains_iff_mem, hcompleted.mem_iff]
  have hvars : boundVars { s with bindings, completed } = s.boundVars :=
    (h.areVariables hturns).1.mergeSort_perm byIndex_varBefore (hbindings.map (·.1))
  simp only [incomplete, hvars, hfind, hcontains]

end State

end TaskDialogue
