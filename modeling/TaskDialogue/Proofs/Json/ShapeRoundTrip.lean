import Mathlib.Data.List.Forall2
import TaskDialogue.Json.Shape
import TaskDialogue.Proofs.Json.RoundTrip

/-!
# Values of a shape are read back

A value of a shape is written with the fields of its records in the order of declaration. A field that
is blank and not required may be left out. Whatever is written so is read back as it was.
-/
namespace TaskDialogue.Json

def Fields.keys : Fields → List String
  | .nil => []
  | .cons key _ _ rest => key :: rest.keys

mutual

/-- The JSON values that a value of a shape may be written as, with room for `depth` containers. -/
def Shape.Writes : (shape : Shape) → (depth : Nat) → shape.Carrier → Json → Prop
  | .text, _, s, j => j = .string s
  | .flag, _, b, j => j = .bool b
  | .any, depth, value, j => j = value ∧ Readable depth j
  | .table, depth, fields, j => j = .object fields ∧ Readable depth j
  | .list item, depth, values, j =>
    ∃ less items, depth = less + 1 ∧ j = .array items ∧ List.Forall₂ (item.Writes less) values items
  | .optional value, depth, given, j =>
    (given = none ∧ j = .null) ∨ ∃ v, given = some v ∧ j ≠ .null ∧ value.Writes depth v j
  | .record _ fields, depth, values, j =>
    ∃ less entries, depth = less + 1 ∧ j = .object entries ∧ fields.keys.Nodup ∧
      fields.Writes less values entries

/-- The entries that the fields of a record may be written as. -/
def Fields.Writes : (fields : Fields) → (depth : Nat) → fields.Carrier → List (String × Json) → Prop
  | .nil, _, _, entries => entries = []
  | .cons key required shape rest, depth, (value, values), entries =>
    (required = false ∧ value = shape.blank ∧ rest.Writes depth values entries) ∨
      ∃ j others, entries = (key, j) :: others ∧ shape.Writes depth value j ∧
        rest.Writes depth values others

end

variable {depth : Nat} {rest : List Char} {j : Json}

/-! ### What is written is readable -/

theorem exists_of_forall₂ {α β : Type} {R : α → β → Prop} {as : List α} {bs : List β} {b : β}
    (h : List.Forall₂ R as bs) (hb : b ∈ bs) : ∃ a ∈ as, R a b := by
  induction h with
  | nil => exact absurd hb List.not_mem_nil
  | cons hfirst _ ih =>
    obtain rfl | hb := List.mem_cons.mp hb
    · exact ⟨_, List.mem_cons_self, hfirst⟩
    · obtain ⟨a, ha, hab⟩ := ih hb
      exact ⟨a, List.mem_cons_of_mem _ ha, hab⟩

mutual

theorem Shape.readable_of_writes : (shape : Shape) → {depth : Nat} → {value : shape.Carrier} →
    {j : Json} → shape.Writes depth value j → Readable depth j
  | .text, _, _, _, rfl => .string _
  | .flag, _, _, _, rfl => .bool _
  | .any, _, _, _, h => h.2
  | .table, _, _, _, h => h.2
  | .list item, _, _, _, ⟨less, items, rfl, rfl, hitems⟩ => .array fun j hj => by
    obtain ⟨v, -, hv⟩ := exists_of_forall₂ hitems hj
    exact Shape.readable_of_writes item hv
  | .optional value, _, _, _, h => by
    obtain ⟨-, rfl⟩ | ⟨v, -, -, hv⟩ := h
    · exact .null
    · exact Shape.readable_of_writes value hv
  | .record name fields, _, _, _, ⟨less, entries, rfl, rfl, hkeys, hfields⟩ => by
    obtain ⟨hsub, hentries⟩ := Fields.readable_of_writes fields hfields
    exact .object (hsub.nodup hkeys) hentries

theorem Fields.readable_of_writes : (fields : Fields) → {depth : Nat} → {values : fields.Carrier} →
    {entries : List (String × Json)} → fields.Writes depth values entries →
    (entries.map (·.1)).Sublist fields.keys ∧ ∀ entry ∈ entries, Readable depth entry.2
  | .nil, _, _, _, rfl => ⟨.refl _, fun _ h => absurd h List.not_mem_nil⟩
  | .cons key required shape others, depth, (value, values), entries, h => by
    obtain ⟨-, -, hothers⟩ | ⟨j, left, rfl, hj, hothers⟩ := h
    · obtain ⟨hsub, hentries⟩ := Fields.readable_of_writes others hothers
      exact ⟨hsub.cons _, hentries⟩
    · obtain ⟨hsub, hentries⟩ := Fields.readable_of_writes others hothers
      exact ⟨hsub.cons_cons _, List.forall_mem_cons.mpr ⟨Shape.readable_of_writes shape hj, hentries⟩⟩

end

theorem Fields.notMem_of_writes {fields : Fields} {values : fields.Carrier} {entries : List (String × Json)}
    {key : String} (h : fields.Writes depth values entries) (hkey : key ∉ fields.keys) :
    key ∉ entries.map (·.1) := fun hmem =>
  hkey ((fields.readable_of_writes h).1.subset hmem)

/-! ### Reading back -/

/-- The reader takes `v` off the text of `j`, whatever follows. -/
def TakesBack {α : Type} (reader : List Char → Except Fault (α × List Char)) (v : α) (j : Json) : Prop :=
  ∀ ⦃rest : List Char⦄, EndsNumber rest → reader (j.render ++ rest) = .ok (v, rest)

theorem length_le_listed {α : Type} (text : α → List Char) (first : Bool) {items : List α}
    (h : ∀ item ∈ items, text item ≠ []) :
    items.length ≤ (listed text first items).length := by
  induction items generalizing first with
  | nil => exact Nat.zero_le _
  | cons item items ih =>
    obtain ⟨hitem, hitems⟩ := List.forall_mem_cons.mp h
    have hlength := List.length_pos_iff.mpr hitem
    have hrest := ih false hitems
    simp only [listed, List.length_append, List.length_cons]
    omega

theorem readList_listed {α : Type} {item : List Char → Except Fault (α × List Char)} {values : List α}
    {items : List Json} (h : List.Forall₂ (fun v j => Readable depth j ∧ TakesBack item v j) values items)
    {fuel : Nat} (hfuel : items.length < fuel) (first : Bool) :
    readList item fuel first (listed render first items ++ ']' :: rest) = .ok (values, rest) := by
  induction h generalizing fuel first with
  | nil =>
    obtain ⟨fuel, rfl⟩ := Nat.exists_eq_add_one.mpr (Nat.zero_lt_of_lt hfuel)
    rfl
  | @cons v j values items hitem _ ih =>
    obtain ⟨fuel, rfl⟩ := Nat.exists_eq_add_one.mpr (Nat.zero_lt_of_lt hfuel)
    obtain ⟨hreadable, hback⟩ := hitem
    have hvalue := hback (endsNumber_listed render (c := ']') (by decide) items rest)
    have hothers := ih (Nat.lt_of_succ_lt_succ hfuel) false
    rw [listed, List.append_assoc, readList, itemAhead?_separator hreadable]
    simp [hvalue, hothers, bind, Except.bind, pure, Except.pure]

/-- The entries are taken one after another, from the draft to the filled one. -/
def Taken {δ : Type} (field : String → δ → Option (List Char → Except Fault (δ × List Char))) :
    List (String × Json) → δ → δ → Prop
  | [], draft, filled => draft = filled
  | (key, j) :: entries, draft, filled =>
    ∃ reader next, field key draft = some reader ∧
      (∀ after, EndsNumber after → reader (':' :: (j.render ++ after)) = .ok (next, after)) ∧
      Taken field entries next filled

theorem readRecord_listed {δ : Type}
    {field : String → δ → Option (List Char → Except Fault (δ × List Char))}
    {entries : List (String × Json)} {draft filled : δ} (h : Taken field entries draft filled)
    {fuel : Nat} (hfuel : entries.length < fuel) (first : Bool) (rest : List Char) :
    readRecord field fuel first draft (listed renderField first entries ++ '\x7d' :: rest) =
      .ok (filled, '\x7d' :: rest) := by
  induction entries generalizing fuel first draft with
  | nil =>
    obtain ⟨fuel, rfl⟩ := Nat.exists_eq_add_one.mpr (Nat.zero_lt_of_lt hfuel)
    obtain rfl : draft = filled := h
    rfl
  | cons entry entries ih =>
    obtain ⟨fuel, rfl⟩ := Nat.exists_eq_add_one.mpr (Nat.zero_lt_of_lt hfuel)
    obtain ⟨key, j⟩ := entry
    obtain ⟨reader, next, hreader, hread, hentries⟩ := h
    have hvalue := hread _ (endsNumber_listed renderField (c := '\x7d') (by decide) entries rest)
    have hothers := ih hentries (Nat.lt_of_succ_lt_succ hfuel) false
    rw [readRecord, keyAhead?_listed]
    simp [hreader, hvalue, hothers, bind, Except.bind]

/-- A key before all others of a record is not among theirs. -/
theorem Taken.behind {key : String} {required : Bool} {shape : Shape} {others : Fields}
    {entries : List (String × Json)} {draft filled : others.Draft}
    (h : Taken (others.readField depth) entries draft filled) (hkeys : key ∉ entries.map (·.1))
    (known : Option shape.Carrier) :
    Taken ((Fields.cons key required shape others).readField depth) entries (known, draft)
      (known, filled) := by
  induction entries generalizing draft with
  | nil =>
    obtain rfl : draft = filled := h
    rfl
  | cons entry entries ih =>
    obtain ⟨name, j⟩ := entry
    obtain ⟨reader, next, hreader, hread, hentries⟩ := h
    simp only [List.map_cons, List.mem_cons, not_or] at hkeys
    refine ⟨fun cs => (reader cs).map fun r => ((known, r.1), r.2), (known, next), ?_,
      fun after hafter => ?_, ih hentries hkeys.2⟩
    · change (if key = name then some _ else (others.readField depth name draft).map _) = _
      rw [if_neg hkeys.1, hreader]
      rfl
    · exact congrArg (Except.map fun r => ((known, r.1), r.2)) (hread after hafter)

theorem takesBack_text (s : String) : TakesBack (Shape.text.read depth) s (.string s) := by
  intro rest _
  change readString (s.toList.flatMap escapeChar ++ ['"'] ++ rest) = .ok (s, rest)
  rw [List.append_assoc]
  exact readString_escaped s rest

theorem takesBack_flag (b : Bool) : TakesBack (Shape.flag.read depth) b (.bool b) := by
  intro rest _
  cases b <;> rfl

theorem takesBack_any (h : Readable depth j) : TakesBack (Shape.any.read depth) j j := by
  intro rest hend
  refine h.readsBack _ _ ?_ hend
  rw [fuelFor, List.length_append]
  omega

/-- There is fuel for every part of a text. -/
theorem lt_fuelFor_append (cs rest : List Char) : 2 * cs.length < fuelFor (cs ++ rest) := by
  rw [fuelFor, List.length_append]
  omega

theorem takesBack_table {fields : List (String × Json)} (h : Readable depth (.object fields)) :
    TakesBack (Shape.table.read depth) fields (.object fields) := by
  intro rest _
  cases h with
  | @object depth _ hkeys hfields =>
    change readFields (fuelFor (renderFields fields ++ ['\x7d'] ++ rest)) depth true []
      (renderFields fields ++ ['\x7d'] ++ rest) = _
    rw [renderFields_eq, List.append_assoc]
    exact readFields_listed _ true rest [] hkeys
      (fun field hfield => ⟨hfields field hfield, (hfields field hfield).readsBack⟩) (lt_fuelFor_append _ _)

theorem takesBack_list {item : Shape} {values : List item.Carrier} {items : List Json}
    (h : List.Forall₂ (fun v j => Readable depth j ∧ TakesBack (item.read depth) v j) values items) :
    TakesBack ((Shape.list item).read (depth + 1)) values (.array items) := by
  intro rest _
  have hitems : ∀ j ∈ items, j.render ≠ [] := fun j hj => by
    obtain ⟨v, -, hreadable, -⟩ := exists_of_forall₂ h hj
    obtain ⟨c, cs, hcons, -⟩ := hreadable.exists_cons_render
    simp [hcons]
  change readList (item.read depth) (fuelFor (renderItems items ++ [']'] ++ rest)) true
    (renderItems items ++ [']'] ++ rest) = _
  rw [renderItems_eq, List.append_assoc]
  have hlength := length_le_listed render true hitems
  have hfuel := lt_fuelFor_append (listed render true items) ([']'] ++ rest)
  exact readList_listed h (by omega) true

theorem takesBack_null {shape : Shape} : TakesBack ((Shape.optional shape).read depth) none .null :=
  fun _ _ => rfl

theorem takesBack_some {shape : Shape} {v : shape.Carrier} (hreadable : Readable depth j)
    (hne : j ≠ .null) (h : TakesBack (shape.read depth) v j) :
    TakesBack ((Shape.optional shape).read depth) (some v) j := by
  intro rest hend
  have hread := h hend
  obtain ⟨c, cs, hcons, hspace, -, hnull⟩ := hreadable.exists_cons_render
  rw [hcons, List.cons_append] at hread ⊢
  unfold Shape.read
  rw [skipSpace_cons hspace, hread]
  split
  · next heq => exact absurd (hnull (List.cons.inj heq).1) hne
  · rfl

theorem takesBack_record {name : String} {fields : Fields} {values : fields.Carrier}
    {draft : fields.Draft} {entries : List (String × Json)}
    (h : Taken (fields.readField depth) entries fields.noneKnown draft)
    (hfinish : fields.finish draft = .ok values) :
    TakesBack ((Shape.record name fields).read (depth + 1)) values (.object entries) := by
  intro rest _
  have hlength : entries.length ≤ (listed renderField true entries).length :=
    length_le_listed renderField true (by simp [renderField, quote])
  have hfuel := lt_fuelFor_append (listed renderField true entries) ('\x7d' :: rest)
  have hentries : entries.length < fuelFor (listed renderField true entries ++ '\x7d' :: rest) := by omega
  have hread := readRecord_listed h hentries true rest
  have htext : (Json.object entries).render ++ rest =
      '\x7b' :: (listed renderField true entries ++ '\x7d' :: rest) := by
    simp [render, renderFields_eq]
  rw [htext]
  generalize listed renderField true entries ++ '\x7d' :: rest = text at hread ⊢
  unfold Shape.read
  dsimp only [Shape.Carrier]
  rw [skipSpace_cons (by decide)]
  simp only [hread, hfinish]
  rfl

mutual

/-- What a value is written as is read back as this value. -/
theorem Shape.takesBack : (shape : Shape) → {depth : Nat} → {value : shape.Carrier} → {j : Json} →
    shape.Writes depth value j → TakesBack (shape.read depth) value j
  | .text, _, _, _, rfl => takesBack_text _
  | .flag, _, _, _, rfl => takesBack_flag _
  | .any, _, _, _, ⟨rfl, h⟩ => takesBack_any h
  | .table, _, _, _, ⟨rfl, h⟩ => takesBack_table h
  | .list item, _, _, _, ⟨_, _, rfl, rfl, hitems⟩ =>
    takesBack_list (hitems.imp fun _ _ h => ⟨item.readable_of_writes h, item.takesBack h⟩)
  | .optional value, _, _, _, h => by
    obtain ⟨rfl, rfl⟩ | ⟨v, rfl, hne, hv⟩ := h
    · exact takesBack_null
    · exact takesBack_some (value.readable_of_writes hv) hne (value.takesBack hv)
  | .record _ fields, _, _, _, ⟨_, _, rfl, rfl, hkeys, hfields⟩ => by
    obtain ⟨draft, htaken, hfinish⟩ := fields.taken hkeys hfields
    exact takesBack_record htaken hfinish

theorem Fields.taken : (fields : Fields) → {depth : Nat} → {values : fields.Carrier} →
    {entries : List (String × Json)} → fields.keys.Nodup → fields.Writes depth values entries →
    ∃ draft, Taken (fields.readField depth) entries fields.noneKnown draft ∧
      fields.finish draft = .ok values
  | .nil, _, _, _, _, rfl => ⟨(), rfl, rfl⟩
  | .cons key required shape others, depth, (value, values), entries, hnodup, h => by
    obtain ⟨hkey, hkeys⟩ := List.nodup_cons.mp hnodup
    obtain ⟨rfl, rfl, hothers⟩ | ⟨j, left, rfl, hj, hothers⟩ := h
    · obtain ⟨draft, htaken, hfinish⟩ := others.taken hkeys hothers
      have hbehind := Fields.notMem_of_writes hothers hkey
      exact ⟨(none, draft), htaken.behind hbehind none, congrArg (Except.map (shape.blank, ·)) hfinish⟩
    · obtain ⟨draft, htaken, hfinish⟩ := others.taken hkeys hothers
      have hbehind := Fields.notMem_of_writes hothers hkey
      refine ⟨(some value, draft), ⟨_, _, if_pos rfl, fun after hafter => ?_,
        htaken.behind hbehind (some value)⟩, congrArg (Except.map (value, ·)) hfinish⟩
      exact congrArg (Except.map fun r => ((some r.1, others.noneKnown), r.2)) (shape.takesBack hj hafter)

end

/-- The compact text of what a value is written as is parsed as this value. -/
theorem Shape.parse_compact {shape : Shape} {value : shape.Carrier} (h : shape.Writes maxDepth value j) :
    shape.parse j.compact = .ok value := by
  have hread := shape.takesBack h .nil
  rw [List.append_nil] at hread
  rw [Shape.parse, compact, String.toList_ofList, hread]
  rfl

end TaskDialogue.Json
