import TaskDialogue.Task.Registry

/-!
# What a registry holds

The schemas of a registry stand in the order of their names, each name once. A name means the
first schema that was put in under it, so no domain changes what an auxiliary command is.
-/
namespace TaskDialogue.Registry

/-- Names in order, each once. -/
def Sorted (schemas : List CommandSchema) : Prop := schemas.Pairwise fun s t => s.name < t.name

variable {schema : CommandSchema} {schemas : List CommandSchema} {name : String}

/-- A name that is smaller than all is not there. -/
theorem find?_of_lt (h : ∀ s ∈ schemas, name < s.name) : schemas.find? (·.name = name) = none := by
  rw [List.find?_eq_none]
  intro s hs
  simpa using (String.ne_of_lt (h s hs)).symm

theorem mem_insertInto {s : CommandSchema} (h : s ∈ insertInto schema schemas) :
    s = schema ∨ s ∈ schemas := by
  induction schemas with
  | nil => simpa [insertInto] using h
  | cons t rest ih =>
    simp only [insertInto] at h
    split at h
    · exact .inr h
    · split at h
      · exact List.mem_cons.mp h
      · obtain rfl | h := List.mem_cons.mp h
        · exact .inr List.mem_cons_self
        · exact (ih h).imp_right (List.mem_cons_of_mem _)

/-- Names that differ and do not come before are after. -/
theorem lt_of_not_lt {a b : String} (hne : a ≠ b) (h : ¬b < a) : a < b := by
  rw [String.not_lt] at h
  exact Decidable.byContradiction fun hlt => hne (String.le_antisymm h (String.not_lt.mp hlt))

theorem sorted_insertInto (h : Sorted schemas) : Sorted (insertInto schema schemas) := by
  induction schemas with
  | nil => simp [insertInto, Sorted]
  | cons t rest ih =>
    obtain ⟨ht, hrest⟩ := List.pairwise_cons.mp h
    simp only [insertInto]
    split
    · exact h
    · next hne =>
      split
      · next hlt =>
        refine List.pairwise_cons.mpr ⟨List.forall_mem_cons.mpr ⟨hlt, fun s hs => ?_⟩, h⟩
        exact String.lt_trans hlt (ht s hs)
      · next hlt =>
        refine List.pairwise_cons.mpr ⟨fun s hs => ?_, ih hrest⟩
        obtain rfl | hs := mem_insertInto hs
        · exact lt_of_not_lt hne hlt
        · exact ht s hs

/-- What is put in is found under its name, unless the name was taken. -/
theorem find?_insertInto (h : Sorted schemas) :
    (insertInto schema schemas).find? (·.name = name) =
      (schemas.find? (·.name = name)).or (if schema.name = name then some schema else none) := by
  induction schemas with
  | nil => by_cases hname : schema.name = name <;> simp [insertInto, hname]
  | cons t rest ih =>
    obtain ⟨ht, hrest⟩ := List.pairwise_cons.mp h
    simp only [insertInto]
    split
    · next heq =>
      by_cases hname : t.name = name
      · simp [hname]
      · simp [hname, heq ▸ hname]
    · next hne =>
      split
      · next hlt =>
        by_cases hname : schema.name = name
        · have hnone : (t :: rest).find? (·.name = name) = none := by
            refine find?_of_lt (List.forall_mem_cons.mpr ⟨hname ▸ hlt, fun s hs => ?_⟩)
            exact String.lt_trans (hname ▸ hlt) (ht s hs)
          simp [hname, hnone]
        · simp [hname]
      · by_cases hname : t.name = name
        · simp [hname]
        · simp only [List.find?_cons, hname, decide_false]
          exact ih hrest

theorem find?_foldl (more : List CommandSchema) (h : Sorted schemas) :
    (more.foldl (fun schemas s => insertInto s schemas) schemas).find? (·.name = name) =
      (schemas.find? (·.name = name)).or (more.find? (·.name = name)) := by
  induction more generalizing schemas with
  | nil => simp
  | cons s more ih =>
    rw [List.foldl_cons, ih (sorted_insertInto h), find?_insertInto h, Option.or_assoc]
    by_cases hname : s.name = name <;> simp [hname]

/-- A name means the first schema of that name, with the auxiliary ones before those of the
domain. -/
theorem get?_ofSchemas (domain : List CommandSchema) (name : String) :
    (ofSchemas domain).get? name = (auxiliary ++ domain).find? (·.name = name) := by
  rw [get?, ofSchemas, find?_foldl (auxiliary ++ domain) List.Pairwise.nil]
  simp

theorem mem_foldl {s : CommandSchema} (more : List CommandSchema)
    (h : s ∈ more.foldl (fun schemas s => insertInto s schemas) schemas) : s ∈ schemas ∨ s ∈ more := by
  induction more generalizing schemas with
  | nil => exact .inl h
  | cons t more ih =>
    obtain hold | hlater := ih h
    · obtain rfl | hold := mem_insertInto hold
      · exact .inr List.mem_cons_self
      · exact .inl hold
    · exact .inr (List.mem_cons_of_mem _ hlater)

/-- There is nothing in a registry but what was put in. -/
theorem mem_ofSchemas {s : CommandSchema} {domain : List CommandSchema}
    (h : s ∈ (ofSchemas domain).schemas) : s ∈ auxiliary ++ domain :=
  (mem_foldl _ h).resolve_left List.not_mem_nil

/-! ### Registries that mean the same -/

theorem sorted_foldl (more : List CommandSchema) (h : Sorted schemas) :
    Sorted (more.foldl (fun schemas s => insertInto s schemas) schemas) := by
  induction more generalizing schemas with
  | nil => exact h
  | cons s more ih => exact ih (sorted_insertInto h)

/-- Schemas in the order of their names are fixed by what the names mean: the name that comes first in
one list cannot be missing from the other. -/
theorem Sorted.eq_of_find? {others : List CommandSchema} (h : Sorted schemas) (hothers : Sorted others)
    (hsame : ∀ name, schemas.find? (·.name = name) = others.find? (·.name = name)) :
    schemas = others := by
  induction schemas generalizing others with
  | nil =>
    cases others with
    | nil => rfl
    | cons t _ => simpa using hsame t.name
  | cons s rest ih =>
    obtain ⟨hs, hrest⟩ := List.pairwise_cons.mp h
    cases others with
    | nil => simpa using hsame s.name
    | cons t others =>
      obtain ⟨ht, hothers'⟩ := List.pairwise_cons.mp hothers
      have hname : s.name = t.name := by
        refine Decidable.byContradiction fun hne => ?_
        by_cases hlt : s.name < t.name
        · have hmissing := find?_of_lt (List.forall_mem_cons.mpr
            ⟨hlt, fun r hr => String.lt_trans hlt (ht r hr)⟩)
          simpa [hmissing] using hsame s.name
        · have hgt := lt_of_not_lt (Ne.symm hne) hlt
          have hmissing := find?_of_lt (List.forall_mem_cons.mpr
            ⟨hgt, fun r hr => String.lt_trans hgt (hs r hr)⟩)
          simpa [hmissing] using hsame t.name
      have hst : s = t := by simpa [hname] using hsame s.name
      subst hst
      refine congrArg _ (ih hrest hothers' fun name => ?_)
      by_cases hfirst : s.name = name
      · rw [← hfirst, find?_of_lt hs, find?_of_lt ht]
      · simpa [hfirst] using hsame name

/-- Only the first schema of each name counts. -/
theorem ofSchemas_congr {domain other : List CommandSchema}
    (h : ∀ name, domain.find? (·.name = name) = other.find? (·.name = name)) :
    ofSchemas domain = ofSchemas other := by
  refine congrArg Registry.mk (Sorted.eq_of_find? (sorted_foldl _ .nil) (sorted_foldl _ .nil) fun name => ?_)
  rw [find?_foldl _ .nil, find?_foldl _ .nil, List.find?_append, List.find?_append, h]

end TaskDialogue.Registry
