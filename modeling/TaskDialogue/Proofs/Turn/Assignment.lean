import Mathlib.Data.List.Find
import Mathlib.Data.List.Nodup
import TaskDialogue.Proofs.Turn.Classification

/-!
# Which variable an assignment writes to

The writes of an assignment are grouped by variable: the groups stand in the order in which their
variables first appear, and each holds all writes of its variable in the order of the statement.
So the variable that is selected is a matter of the targets alone, whatever the values are.
-/
namespace TaskDialogue

/-- A variable than which no other stands in the list more often, and of several the first. -/
def mostFrequent (vars : List String) : Option String :=
  vars.find? fun v => vars.all fun w => vars.count w ≤ vars.count v

namespace Exec

/-- The variables of the targets that have a value, in order. -/
def targetVars (targets es : List Expr) : List String :=
  (targets.zip es).filterMap fun t => (assignmentTarget t.1).toOption.map (·.1)

/-- Groups of writes, one for each variable in the order in which these first appear. -/
structure Grouped (writes : List (String × AttributeUpdate))
    (groups : List (String × List AttributeUpdate)) : Prop where
  nodup : (groups.map (·.1)).Nodup
  find? : ∀ p : String → Bool, (groups.map (·.1)).find? p = (writes.map (·.1)).find? p
  updates : ∀ g ∈ groups, g.2 = (writes.filter (·.1 = g.1)).map (·.2)

section

variable {var : String} {update : AttributeUpdate} {writes : List (String × AttributeUpdate)}
  {groups : List (String × List AttributeUpdate)} {g : String × List AttributeUpdate}

theorem names_addUpdate (var : String) (update : AttributeUpdate)
    (groups : List (String × List AttributeUpdate)) :
    (addUpdate var update groups).map (·.1) =
      if var ∈ groups.map (·.1) then groups.map (·.1) else groups.map (·.1) ++ [var] := by
  induction groups with
  | nil => rfl
  | cons g rest ih =>
    obtain ⟨name, updates⟩ := g
    by_cases hname : name = var
    · simp [addUpdate, hname]
    · simp only [addUpdate, hname, if_false, List.map_cons, ih, List.mem_cons,
        Ne.symm hname, false_or]
      split <;> rfl

/-- A write goes to the end of the group of its variable, which is made when there is none. -/
theorem mem_addUpdate (hnodup : (groups.map (·.1)).Nodup) (hg : g ∈ addUpdate var update groups) :
    (g.1 ≠ var ∧ g ∈ groups) ∨
      (g.1 = var ∧ ((∃ old, (var, old) ∈ groups ∧ g.2 = old ++ [update]) ∨
        (var ∉ groups.map (·.1) ∧ g.2 = [update]))) := by
  induction groups with
  | nil =>
    simp only [addUpdate, List.mem_singleton] at hg
    subst hg
    exact .inr ⟨rfl, .inr ⟨by simp, rfl⟩⟩
  | cons first rest ih =>
    obtain ⟨name, updates⟩ := first
    rw [List.map_cons, List.nodup_cons] at hnodup
    simp only [addUpdate] at hg
    split at hg
    · next hname =>
      subst hname
      obtain rfl | hrest := List.mem_cons.mp hg
      · exact .inr ⟨rfl, .inl ⟨updates, List.mem_cons_self, rfl⟩⟩
      · have hother : g.1 ≠ name := by
          intro heq
          exact hnodup.1 (heq ▸ List.mem_map_of_mem (f := (·.1)) hrest)
        exact .inl ⟨hother, List.mem_cons_of_mem _ hrest⟩
    · next hname =>
      obtain rfl | hrest := List.mem_cons.mp hg
      · exact .inl ⟨hname, List.mem_cons_self⟩
      · obtain ⟨hother, hmem⟩ | ⟨hvar, ⟨old, hold, heq⟩ | ⟨hnew, heq⟩⟩ := ih hnodup.2 hrest
        · exact .inl ⟨hother, List.mem_cons_of_mem _ hmem⟩
        · exact .inr ⟨hvar, .inl ⟨old, List.mem_cons_of_mem _ hold, heq⟩⟩
        · refine .inr ⟨hvar, .inr ⟨?_, heq⟩⟩
          rw [List.map_cons, List.mem_cons, not_or]
          exact ⟨Ne.symm hname, hnew⟩

namespace Grouped

theorem nil : Grouped [] [] := ⟨List.nodup_nil, fun _ => rfl, by simp⟩

theorem mem_iff (h : Grouped writes groups) (v : String) :
    v ∈ groups.map (·.1) ↔ v ∈ writes.map (·.1) := by
  have hmem : ∀ names : List String, v ∈ names ↔ (names.find? fun w => w = v).isSome := by simp
  rw [hmem, h.find?, ← hmem]

/-- A group is as long as its variable is frequent. -/
theorem length_eq (h : Grouped writes groups) (hg : g ∈ groups) :
    g.2.length = (writes.map (·.1)).count g.1 := by
  rw [h.updates g hg, List.length_map, List.count, List.countP_map, List.countP_eq_length_filter]
  congr 1

theorem add (h : Grouped writes groups) (var : String) (update : AttributeUpdate) :
    Grouped (writes ++ [(var, update)]) (addUpdate var update groups) where
  nodup := by
    rw [names_addUpdate]
    split
    · exact h.nodup
    · next hnew => exact List.concat_eq_append ▸ h.nodup.concat hnew
  find? p := by
    rw [names_addUpdate, List.map_append, List.find?_append, ← h.find? p]
    split
    · next hvar =>
      cases hfind : (groups.map (·.1)).find? p with
      | some w => rfl
      | none =>
        have hp : p var = false := by simpa using List.find?_eq_none.mp hfind var hvar
        simp [hp]
    · rw [List.find?_append]
      rfl
  updates g hg := by
    rw [List.filter_append, List.map_append]
    obtain ⟨hother, hmem⟩ | ⟨hvar, ⟨old, hold, heq⟩ | ⟨hnew, heq⟩⟩ := mem_addUpdate h.nodup hg
    · rw [h.updates g hmem]
      simp [Ne.symm hother]
    · have hlist := h.updates _ hold
      dsimp only at hlist
      rw [heq, hlist, hvar]
      simp
    · have hnone : writes.filter (·.1 = g.1) = [] := by
        rw [List.filter_eq_nil_iff]
        intro w hw hname
        rw [h.mem_iff] at hnew
        exact hnew (hvar ▸ of_decide_eq_true hname ▸ List.mem_map_of_mem hw)
      rw [heq, hnone, hvar]
      simp

end Grouped

end

/-- The writes are grouped as they are met, and each has the variable of its target. -/
theorem assignmentGroups_ok {registry : Registry} {targets es : List Expr}
    {groups result : List (String × List AttributeUpdate)}
    {writes : List (String × AttributeUpdate)} {s t : State} (hgroups : Grouped writes groups)
    (h : assignmentGroups registry targets es groups s = (.ok result, t)) :
    ∃ more, Grouped (writes ++ more) result ∧ more.map (·.1) = targetVars targets es := by
  induction targets generalizing es groups writes s with
  | nil =>
    simp only [assignmentGroups, Prod.mk.injEq, Except.ok.injEq] at h
    exact ⟨[], by rw [List.append_nil, ← h.1]; exact hgroups, rfl⟩
  | cons target targets ih =>
    cases es with
    | nil =>
      simp only [assignmentGroups, Prod.mk.injEq, Except.ok.injEq] at h
      exact ⟨[], by rw [List.append_nil, ← h.1]; exact hgroups, rfl⟩
    | cons e es =>
      simp only [assignmentGroups] at h
      split at h
      · simp at h
      · next var index attr htarget =>
        split at h
        · simp at h
        · next value u _ =>
          obtain ⟨more, hmore, hvars⟩ := ih (hgroups.add var ⟨attr, index, value⟩) h
          refine ⟨(var, ⟨attr, index, value⟩) :: more, by simpa using hmore, ?_⟩
          rw [List.map_cons, hvars]
          simp [targetVars, htarget, Except.toOption]

theorem foldl_max_le {lengths : List Nat} {least n : Nat} :
    lengths.foldl max least ≤ n ↔ least ≤ n ∧ ∀ m ∈ lengths, m ≤ n := by
  induction lengths generalizing least with
  | nil => simp
  | cons m rest ih => simp [ih, and_assoc]

/-- A group is among the longest when no variable is more frequent than its own. -/
theorem Grouped.longest_iff {writes : List (String × AttributeUpdate)}
    {groups : List (String × List AttributeUpdate)} {g : String × List AttributeUpdate}
    (h : Grouped writes groups) (hg : g ∈ groups) :
    g.2.length = (groups.map (·.2.length)).foldl max 0 ↔
      ∀ v ∈ writes.map (·.1), (writes.map (·.1)).count v ≤ (writes.map (·.1)).count g.1 := by
  have hlongest : ∀ other ∈ groups,
      other.2.length ≤ (groups.map (·.2.length)).foldl max 0 := fun other hother =>
    (foldl_max_le.mp (Nat.le_refl _)).2 _ (List.mem_map_of_mem hother)
  constructor
  · intro heq v hv
    obtain ⟨other, hother, rfl⟩ := List.mem_map.mp ((h.mem_iff v).mpr hv)
    have hless := hlongest other hother
    rwa [← heq, h.length_eq hg, h.length_eq hother] at hless
  · intro hall
    refine Nat.le_antisymm (hlongest g hg) (foldl_max_le.mpr ⟨Nat.zero_le _, fun m hm => ?_⟩)
    obtain ⟨other, hother, rfl⟩ := List.mem_map.mp hm
    have hvar := (h.mem_iff other.1).mp (List.mem_map_of_mem hother)
    rw [h.length_eq hg, h.length_eq hother]
    exact hall other.1 hvar

/-- The first of the longest groups is the one of the most frequent variable. -/
theorem Grouped.find?_longest {writes : List (String × AttributeUpdate)}
    {groups : List (String × List AttributeUpdate)} (h : Grouped writes groups) :
    (groups.find? (·.2.length = (groups.map (·.2.length)).foldl max 0)).map (·.1) =
      mostFrequent (writes.map (·.1)) := by
  have hmost : ∀ g ∈ groups,
      ((writes.map (·.1)).all fun w => (writes.map (·.1)).count w ≤ (writes.map (·.1)).count g.1) =
        decide (g.2.length = (groups.map (·.2.length)).foldl max 0) := by
    intro g hg
    rw [Bool.eq_iff_iff, decide_eq_true_iff, h.longest_iff hg]
    simp
  rw [mostFrequent, ← h.find?, List.find?_map]
  exact congrArg (Option.map (·.1)) (List.find?_congr hmost).symm

/-- The selected variable is the one with most targets, and of several the first. -/
theorem selectGroup_mostFrequent {policy : MultiTargetPolicy} {turn : Nat} {call : Call}
    {writes : List (String × AttributeUpdate)} {groups : List (String × List AttributeUpdate)}
    (hgroups : Grouped writes groups) (h : selectGroup policy turn groups = .ok call) :
    mostFrequent (writes.map (·.1)) = some call.var := by
  unfold selectGroup at h
  split at h
  · simp at h
  · dsimp only at h
    split at h
    · next var updates hfind =>
      simp only [Except.ok.injEq] at h
      rw [← hgroups.find?_longest, hfind, ← h]
      rfl
    · simp at h

/-- The call of an assignment is on the variable with most targets. -/
theorem classifyAssignment_var {registry : Registry} {policy : MultiTargetPolicy} {turn : Nat}
    {targets es : List Expr} {s t : State} {call : Call}
    (h : classifyAssignment registry policy turn targets es s = (.ok call, t)) :
    mostFrequent (targetVars targets es) = some call.var := by
  unfold classifyAssignment at h
  split at h
  · simp at h
  · next groups u hgroups =>
    simp only [Prod.mk.injEq] at h
    obtain ⟨more, hgrouped, hvars⟩ := assignmentGroups_ok .nil hgroups
    rw [← hvars]
    exact selectGroup_mostFrequent hgrouped h.1

end Exec

end TaskDialogue
