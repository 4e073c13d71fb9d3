import Mathlib.Data.List.DropRight
import TaskDialogue.Text.Blank

/-!
# Texts without blanks around them

A text is trimmed when it neither starts nor ends with a blank: then trimming leaves it as it is.
The lines of texts with line feeds between them are the lines of these texts, one after another.
-/
namespace TaskDialogue.Text

variable {cs ds : List Char}

/-- No blanks at either end. -/
structure Trimmed (cs : List Char) : Prop where
  first : ∀ c, cs.head? = some c → isBlank c = false
  last : ∀ c, cs.getLast? = some c → isBlank c = false

theorem trimStart_of_first (h : ∀ c, cs.head? = some c → isBlank c = false) : trimStart cs = cs := by
  cases cs with
  | nil => rfl
  | cons c cs => exact List.dropWhile_cons_of_neg (by simp [h c rfl])

theorem trimEnd_of_last (h : ∀ c, cs.getLast? = some c → isBlank c = false) : trimEnd cs = cs := by
  have hreverse : cs.reverse.dropWhile isBlank = cs.reverse :=
    trimStart_of_first (by simpa [List.head?_reverse] using h)
  rw [trimEnd, hreverse, List.reverse_reverse]

theorem first_trimStart (cs : List Char) : ∀ c, (trimStart cs).head? = some c → isBlank c = false := by
  intro c hc
  have hfirst := List.head?_dropWhile_not isBlank cs
  rw [show (cs.dropWhile isBlank).head? = some c from hc] at hfirst
  exact hfirst

theorem last_trimEnd (cs : List Char) : ∀ c, (trimEnd cs).getLast? = some c → isBlank c = false := by
  rw [trimEnd, List.getLast?_reverse]
  exact first_trimStart cs.reverse

/-- A text is its trimmed form and the blanks after it. -/
theorem trimEnd_append_blanks (cs : List Char) :
    ∃ blanks, cs = trimEnd cs ++ blanks ∧ ∀ c ∈ blanks, isBlank c = true :=
  ⟨cs.rtakeWhile isBlank, List.rdropWhile_append_rtakeWhile.symm, fun _ hc =>
    List.mem_rtakeWhile_imp hc⟩

theorem trimEnd_append {blanks : List Char} (h : ∀ c ∈ blanks, isBlank c = true) :
    trimEnd (cs ++ blanks) = trimEnd cs := by
  rw [trimEnd, List.reverse_append, List.dropWhile_append_of_pos (by simpa using h)]
  rfl

theorem first_trimEnd (h : ∀ c, cs.head? = some c → isBlank c = false) :
    ∀ c, (trimEnd cs).head? = some c → isBlank c = false := by
  obtain ⟨blanks, hcs, -⟩ := trimEnd_append_blanks cs
  intro c hc
  refine h c ?_
  rw [hcs, List.head?_append, hc, Option.some_or]

theorem isBlank_of_trim_eq_nil (h : trim cs = []) : ∀ c ∈ cs, isBlank c = true := by
  obtain ⟨blanks, hblanks, hall⟩ := trimEnd_append_blanks (trimStart cs)
  rw [show trimEnd (trimStart cs) = [] from h, List.nil_append] at hblanks
  have hstart : trimStart cs = [] := by
    refine List.eq_nil_iff_forall_not_mem.mpr fun c hc => ?_
    obtain ⟨d, ds, hcons⟩ := List.exists_cons_of_ne_nil (List.ne_nil_of_mem hc)
    have hfirst := first_trimStart cs d (by rw [hcons]; rfl)
    rw [hall d (by simp [← hblanks, hcons])] at hfirst
    cases hfirst
  exact List.dropWhile_eq_nil_iff.mp hstart

namespace Trimmed

theorem trim (cs : List Char) : Trimmed (trim cs) :=
  ⟨first_trimEnd (first_trimStart cs), last_trimEnd _⟩

theorem trim_eq (h : Trimmed cs) : Text.trim cs = cs := by
  rw [Text.trim, trimStart_of_first h.first, trimEnd_of_last h.last]

theorem iff_trim_eq : Trimmed cs ↔ Text.trim cs = cs :=
  ⟨trim_eq, fun h => h ▸ trim cs⟩

/-- What starts like one trimmed text and ends like another one is trimmed. -/
theorem append (hcs : Trimmed cs) (hds : Trimmed ds) (hne : cs ≠ []) (hne' : ds ≠ [])
    (between : List Char) : Trimmed (cs ++ between ++ ds) := by
  obtain ⟨c, cs, rfl⟩ := List.exists_cons_of_ne_nil hne
  refine ⟨by simpa using hcs.first, ?_⟩
  rw [List.getLast?_append_of_ne_nil _ hne']
  exact hds.last

end Trimmed

theorem mem_of_mem_trim {c : Char} (h : c ∈ trim cs) : c ∈ cs := by
  simp only [trim, trimEnd, List.mem_reverse] at h
  have hstart := (List.dropWhile_sublist isBlank).subset h
  exact (List.dropWhile_sublist isBlank).subset (List.mem_reverse.mp hstart)

theorem dropSuffix?_eq_some_iff {ending rest : List Char} :
    dropSuffix? ending cs = some rest ↔ cs = rest ++ ending := by
  simp only [dropSuffix?, Option.map_eq_some_iff, dropPrefix?_eq_some_iff]
  constructor
  · rintro ⟨front, hfront, rfl⟩
    rw [← List.reverse_reverse cs, hfront, List.reverse_append, List.reverse_reverse]
  · rintro rfl
    exact ⟨rest.reverse, List.reverse_append, List.reverse_reverse rest⟩

/-! ### Lines -/

theorem splitOn_intercalate_flatMap {texts : List (List Char)} (h : texts ≠ []) :
    (['\n'].intercalate texts).splitOn '\n' = texts.flatMap (·.splitOn '\n') := by
  induction texts with
  | nil => exact absurd rfl h
  | cons text texts ih =>
    cases texts with
    | nil => simp
    | cons next texts =>
      rw [List.intercalate_cons_cons, List.append_assoc, List.flatMap_cons, ← ih (by simp)]
      exact List.splitOn_append_cons_self text _

/-- No line holds a line feed. -/
theorem not_mem_splitOn {line : List Char} (h : line ∈ cs.splitOn '\n') : '\n' ∉ line := by
  induction cs generalizing line with
  | nil =>
    obtain rfl : line = [] := by simpa using h
    simp
  | cons c cs ih =>
    rw [List.splitOn_cons_eq_if_modifyHead] at h
    split at h
    · obtain rfl | h := List.mem_cons.mp h
      · simp
      · exact ih h
    · next hc =>
      obtain ⟨first, rest, hsplit⟩ := List.exists_cons_of_ne_nil (List.splitOn_ne_nil '\n' cs)
      rw [hsplit, List.modifyHead_cons] at h
      obtain rfl | h := List.mem_cons.mp h
      · have hfirst : '\n' ∉ first := ih (by simp [hsplit])
        have hne : '\n' ≠ c := fun heq => hc (by simp [← heq])
        simp [hne, hfirst]
      · exact ih (by simp [hsplit, h])

theorem not_mem_lines {line : List Char} (h : line ∈ lines cs) : '\n' ∉ line := by
  unfold lines at h
  dsimp only at h
  split at h
  · exact not_mem_splitOn (List.dropLast_subset _ h)
  · exact not_mem_splitOn h

end TaskDialogue.Text
