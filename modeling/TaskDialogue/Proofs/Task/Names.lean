import Mathlib.Data.List.Chain
import TaskDialogue.Task.Schema

/-!
# Names in snake case

The characters of a name are put in lower case one by one, and underscores are added to them. An
underscore is added only between two words, where neither word has an underscore of its own, so what is
added can be told from what was there by nothing but its place. A name without capitals is left as it
is, and an underscore in a name cuts it in two names that are put in snake case each for itself.
-/
namespace TaskDialogue

namespace Text

/-- One word may stand right before another one: neither has an underscore at this end. -/
structure Adjoins (left right : List Char) : Prop where
  last : ∃ c, left.getLast? = some c ∧ c ≠ '_'
  first : ∃ c, right.head? = some c ∧ c ≠ '_'

/-- A text with underscores added to it, one for each place where a word ends and the next one
begins, and none anywhere else. -/
def Spaced (text spaced : List Char) : Prop :=
  ∃ words : List (List Char), words.flatten = text ∧ ['_'].intercalate words = spaced ∧
    words.IsChain Adjoins

/-! ### Characters -/

theorem isUpper_iff {c : Char} : c.isUpper ↔ 65 ≤ c.toNat ∧ c.toNat ≤ 90 :=
  decide_eq_true_iff

theorem toLower_of_not_isUpper {c : Char} (h : ¬c.isUpper) : c.toLower = c :=
  dif_neg (mt decide_eq_true h)

/-- Small letters are 32 places behind their capitals. -/
theorem toNat_toLower {c : Char} (h : c.isUpper) : c.toLower.toNat = c.toNat + 32 := by
  obtain ⟨hge, hle⟩ := isUpper_iff.mp h
  have hval : c.toLower.val = c.val + 32 := congrArg Char.val (dif_pos (of_decide_eq_true h))
  have hadd : c.toLower.toNat = (c.toNat + 32) % 2 ^ 32 :=
    (congrArg UInt32.toNat hval).trans (UInt32.toNat_add c.val 32)
  rw [hadd, Nat.mod_eq_of_lt (by omega)]

theorem not_isUpper_toLower (c : Char) : ¬c.toLower.isUpper := by
  by_cases h : c.isUpper = true
  · have hnat := toNat_toLower h
    rw [isUpper_iff] at h ⊢
    omega
  · rwa [toLower_of_not_isUpper h]

theorem toLower_eq_underscore_iff {c : Char} : c.toLower = '_' ↔ c = '_' := by
  refine ⟨fun h => ?_, fun h => by rw [h]; rfl⟩
  by_cases hc : c.isUpper = true
  · have hnat := toNat_toLower hc
    rw [h, show '_'.toNat = 95 from rfl] at hnat
    have hge := (isUpper_iff.mp hc).1
    omega
  · rwa [toLower_of_not_isUpper hc] at h

/-- No word starts after an underscore. -/
theorem startsWord_underscore (next : Option Char) : startsWord '_' next = false := rfl

theorem ne_underscore_of_startsWord {before : Char} {next : Option Char}
    (h : startsWord before next = true) : before ≠ '_' := by
  rintro rfl
  rw [startsWord_underscore] at h
  cases h

/-! ### Case -/

theorem not_isUpper_snakeAfter {before : Char} {cs : List Char} :
    ∀ c ∈ snakeAfter before cs, ¬c.isUpper := by
  induction cs generalizing before with
  | nil => simp [snakeAfter]
  | cons d cs ih =>
    have hrest : ∀ c ∈ d.toLower :: snakeAfter d cs, ¬c.isUpper :=
      List.forall_mem_cons.mpr ⟨not_isUpper_toLower d, ih⟩
    rw [snakeAfter]
    split
    · exact List.forall_mem_cons.mpr ⟨by decide, hrest⟩
    · exact hrest

theorem not_isUpper_snakeChars {cs : List Char} : ∀ c ∈ snakeChars cs, ¬c.isUpper := by
  cases cs with
  | nil => simp [snakeChars]
  | cons d cs => exact List.forall_mem_cons.mpr ⟨not_isUpper_toLower d, not_isUpper_snakeAfter⟩

theorem snakeAfter_of_lower {before : Char} {cs : List Char} (h : ∀ c ∈ cs, ¬c.isUpper) :
    snakeAfter before cs = cs := by
  induction cs generalizing before with
  | nil => rfl
  | cons d cs ih =>
    obtain ⟨hd, hcs⟩ := List.forall_mem_cons.mp h
    simp [snakeAfter, hd, toLower_of_not_isUpper hd, ih hcs]

/-- A name without capitals is in snake case. -/
theorem snakeChars_of_lower {cs : List Char} (h : ∀ c ∈ cs, ¬c.isUpper) :
    snakeChars cs = cs := by
  cases cs with
  | nil => rfl
  | cons d cs =>
    obtain ⟨hd, hcs⟩ := List.forall_mem_cons.mp h
    rw [snakeChars, toLower_of_not_isUpper hd, snakeAfter_of_lower hcs]

/-! ### Underscores -/

/-- A word with one more character in front ends as before. -/
theorem Adjoins.cons {c d : Char} {left right : List Char} (h : Adjoins (d :: left) right) :
    Adjoins (c :: d :: left) right := by
  obtain ⟨⟨last, hlast, hne⟩, hfirst⟩ := h
  exact ⟨⟨last, by rw [List.getLast?_cons_cons, hlast], hne⟩, hfirst⟩

/-- A capital that starts a word is no underscore, and neither is the character before it. -/
theorem adjoins_of_startsWord {before c : Char} {next : Option Char} {word : List Char}
    (hstarts : (c.isUpper && startsWord before next) = true) (hhead : word.head? = some c.toLower) :
    Adjoins [before.toLower] word := by
  obtain ⟨hupper, hstarts⟩ := Bool.and_eq_true_iff.mp hstarts
  have hbefore : before.toLower ≠ '_' :=
    mt toLower_eq_underscore_iff.mp (ne_underscore_of_startsWord hstarts)
  have hc : c.toLower ≠ '_' := by
    refine mt toLower_eq_underscore_iff.mp ?_
    rintro rfl
    cases hupper
  exact ⟨⟨_, rfl, hbefore⟩, ⟨_, hhead, hc⟩⟩

/-- By induction on the characters that follow: each of them goes on with the word before it, or
starts the next one. -/
theorem exists_words (before : Char) (cs : List Char) :
    ∃ word words, (word :: words).flatten = (before :: cs).map Char.toLower ∧
      ['_'].intercalate (word :: words) = before.toLower :: snakeAfter before cs ∧
      (word :: words).IsChain Adjoins ∧ word.head? = some before.toLower := by
  induction cs generalizing before with
  | nil => exact ⟨[before.toLower], [], rfl, rfl, .singleton _, rfl⟩
  | cons c cs ih =>
    obtain ⟨word, words, hflatten, hspaced, hchain, hhead⟩ := ih c
    rw [snakeAfter]
    split
    · next hstarts =>
      refine ⟨[before.toLower], word :: words, ?_, ?_, ?_, rfl⟩
      · rw [List.flatten_cons, hflatten]
        rfl
      · rw [List.intercalate_cons_cons, hspaced]
        rfl
      · exact List.isChain_cons_cons.mpr ⟨adjoins_of_startsWord hstarts hhead, hchain⟩
    · obtain ⟨d, word, rfl⟩ := List.exists_cons_of_ne_nil (l := word) fun hnil => by simp [hnil] at hhead
      refine ⟨before.toLower :: d :: word, words, ?_, ?_, ?_, rfl⟩
      · rw [List.map_cons, ← hflatten]
        rfl
      · rw [List.intercalate_cons_cons_left, hspaced]
      · obtain ⟨hnext, hrest⟩ := List.isChain_cons.mp hchain
        exact List.isChain_cons.mpr ⟨fun next hmem => (hnext next hmem).cons, hrest⟩

theorem spaced_snakeChars (cs : List Char) : Spaced (cs.map Char.toLower) (snakeChars cs) := by
  cases cs with
  | nil => exact ⟨[], rfl, rfl, .nil⟩
  | cons c cs =>
    obtain ⟨word, words, hflatten, hspaced, hchain, -⟩ := exists_words c cs
    exact ⟨word :: words, hflatten, hspaced, hchain⟩

/-- Without underscores a text is the same as before they were added. -/
theorem Spaced.filter {text spaced : List Char} (h : Spaced text spaced) :
    spaced.filter (· ≠ '_') = text.filter (· ≠ '_') := by
  obtain ⟨words, rfl, rfl, -⟩ := h
  induction words with
  | nil => rfl
  | cons word words ih =>
    cases words with
    | nil => simp
    | cons next words =>
      rw [List.intercalate_cons_cons, List.filter_append, ih, List.filter_append,
        show ['_'].filter (· ≠ '_') = [] from rfl, List.append_nil, ← List.filter_append,
        List.flatten_cons (l := word)]

/-! ### Parts of a name -/

theorem snakeAfter_underscore (cs : List Char) : snakeAfter '_' cs = snakeChars cs := by
  cases cs with
  | nil => rfl
  | cons c cs => simp [snakeAfter, snakeChars, startsWord_underscore]

theorem snakeAfter_append (before : Char) (cs ds : List Char) :
    snakeAfter before (cs ++ '_' :: ds) = snakeAfter before cs ++ '_' :: snakeChars ds := by
  induction cs generalizing before with
  | nil => simp [snakeAfter, snakeAfter_underscore]
  | cons c cs ih =>
    have hnext : startsWord before (cs ++ '_' :: ds).head? = startsWord before cs.head? := by
      cases cs <;> rfl
    by_cases hstarts : (c.isUpper && startsWord before cs.head?) = true
    · simp only [List.cons_append, snakeAfter, hnext, ih, if_pos hstarts]
    · simp only [List.cons_append, snakeAfter, hnext, ih, if_neg hstarts]

theorem snakeChars_append (cs ds : List Char) :
    snakeChars (cs ++ '_' :: ds) = snakeChars cs ++ '_' :: snakeChars ds := by
  cases cs with
  | nil => simp [snakeChars, snakeAfter_underscore]
  | cons c cs => simp [snakeChars, snakeAfter_append]

theorem toList_snakeCase (name : String) : (snakeCase name).toList = snakeChars name.toList :=
  String.toList_ofList

theorem snakeCase_append (a b : String) :
    snakeCase (a ++ "_" ++ b) = snakeCase a ++ "_" ++ snakeCase b := by
  apply String.toList_inj.mp
  simp [toList_snakeCase, snakeChars_append]

/-- The names in snake case are those without capitals. -/
theorem snakeCase_eq_self_iff {name : String} :
    snakeCase name = name ↔ ∀ c ∈ name.toList, ¬c.isUpper := by
  refine ⟨fun h => ?_, fun h => ?_⟩
  · rw [← h, toList_snakeCase]
    exact not_isUpper_snakeChars
  · rw [snakeCase, snakeChars_of_lower h, String.ofList_toList]

end Text

/-- A name in snake case has no capitals, and is its own snake case. But for underscores it is the name
in lower case, and an underscore is added only between two characters that are none. The parts of a
name around an underscore are put in snake case each for itself, and so is the name of an entity in
the name of its query. -/
theorem Text.snakeCase_stable (a b : String) (entity : EntitySchema) :
    (∀ c ∈ (Text.snakeCase a).toList, ¬c.isUpper) ∧
      Text.snakeCase (Text.snakeCase a) = Text.snakeCase a ∧
      (Text.snakeCase a).toList.filter (· ≠ '_') = (a.toList.map Char.toLower).filter (· ≠ '_') ∧
      Text.Spaced (a.toList.map Char.toLower) (Text.snakeCase a).toList ∧
      Text.snakeCase (a ++ "_" ++ b) = Text.snakeCase a ++ "_" ++ Text.snakeCase b ∧
      (CommandSchema.query entity).name = "find_" ++ Text.snakeCase entity.name := by
  have hlower : ∀ c ∈ (Text.snakeCase a).toList, ¬c.isUpper := by
    rw [Text.toList_snakeCase]
    exact Text.not_isUpper_snakeChars
  have hspaced : Text.Spaced (a.toList.map Char.toLower) (Text.snakeCase a).toList := by
    rw [Text.toList_snakeCase]
    exact Text.spaced_snakeChars a.toList
  have hfind : Text.snakeCase "find" = "find" := by decide
  refine ⟨hlower, Text.snakeCase_eq_self_iff.mpr hlower, hspaced.filter, hspaced,
    Text.snakeCase_append a b, ?_⟩
  calc (CommandSchema.query entity).name = Text.snakeCase ("find" ++ "_" ++ entity.name) := rfl
    _ = "find" ++ "_" ++ Text.snakeCase entity.name := by rw [Text.snakeCase_append, hfind]
    _ = "find_" ++ Text.snakeCase entity.name := rfl

example : Text.snakeCase "HTTPServer_v2Beta" = "http_server_v2_beta" := by decide

end TaskDialogue
