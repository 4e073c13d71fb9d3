import TaskDialogue.Json.Shape
import TaskDialogue.Proofs.Json.Readable

/-!
# Values that a shape takes off a text

What is known of the values that are read anywhere holds of all values in what a shape describes, and
tables have each key once. Fields that are left out are blank, and a blank value holds nothing but
`null`.
-/
namespace TaskDialogue.Json

/-- Values that are read from a text whose numbers satisfy `N` satisfy `V`, at the depth where they
stand. -/
structure ReadingGives (N : List Char → Prop) (V : Nat → Json → Prop) : Prop where
  null : ∀ depth, V depth .null
  read : ∀ fuel, ReadsWith N V fuel
  skip : ∀ fuel, SkipsWith N fuel

theorem readingGives_readable : ReadingGives IsWhole Readable :=
  ⟨fun _ => .null, readable_readValue, numbers_skipValue⟩

/-- Whatever the numbers, values are read. -/
theorem readingGives_any : ReadingGives (fun _ => True) (fun _ _ => True) :=
  ⟨fun _ => trivial, fun _ _ _ _ _ _ _ => ⟨trivial, fun _ _ => trivial⟩, fun _ _ _ _ _ _ _ => trivial⟩

/-- All items of a list satisfy `P`. -/
def Each {α : Type} (P : α → Prop) (items : List α) : Prop := ∀ item ∈ items, P item

section

variable (V : Nat → Json → Prop)

mutual

/-- All values in a value of a shape satisfy `V`, with room for `depth` containers, and its tables have
each key once. -/
def Shape.Holds : (shape : Shape) → (depth : Nat) → shape.Carrier → Prop
  | .text, _, _ => True
  | .flag, _, _ => True
  | .any, depth, value => V depth value
  | .table, depth, fields => FieldsHold (V (depth - 1)) fields
  | .list item, depth, items => Each (item.Holds (depth - 1)) items
  | .optional value, depth, given => ∀ v, given = some v → value.Holds depth v
  | .record _ fields, depth, values => fields.Holds (depth - 1) values

def Fields.Holds : (fields : Fields) → (depth : Nat) → fields.Carrier → Prop
  | .nil, _, _ => True
  | .cons _ _ shape rest, depth, (value, values) => shape.Holds depth value ∧ rest.Holds depth values

end

/-- The known fields of a record. -/
def Fields.DraftHolds : (fields : Fields) → (depth : Nat) → fields.Draft → Prop
  | .nil, _, _ => True
  | .cons _ _ shape rest, depth, (known, values) =>
    (∀ v, known = some v → shape.Holds V depth v) ∧ rest.DraftHolds depth values

end

variable {N : List Char → Prop} {V : Nat → Json → Prop}

/-! ### Fields that are left out -/

mutual

theorem Shape.holds_blank (hnull : ∀ depth, V depth .null) :
    (shape : Shape) → (depth : Nat) → shape.Holds V depth shape.blank
  | .text, _ => trivial
  | .flag, _ => trivial
  | .any, depth => hnull depth
  | .table, _ => .nil _
  | .list _, _ => fun _ h => absurd h List.not_mem_nil
  | .optional _, _ => nofun
  | .record _ fields, depth => Fields.holds_blank hnull fields (depth - 1)

theorem Fields.holds_blank (hnull : ∀ depth, V depth .null) :
    (fields : Fields) → (depth : Nat) → fields.Holds V depth fields.blank
  | .nil, _ => trivial
  | .cons _ _ shape rest, depth => ⟨Shape.holds_blank hnull shape depth, Fields.holds_blank hnull rest depth⟩

end

theorem Fields.draftHolds_noneKnown : (fields : Fields) → (depth : Nat) →
    fields.DraftHolds V depth fields.noneKnown
  | .nil, _ => trivial
  | .cons _ _ _ rest, depth => ⟨nofun, rest.draftHolds_noneKnown depth⟩

theorem Fields.holds_finish (hnull : ∀ depth, V depth .null) : (fields : Fields) → {depth : Nat} →
    {draft : fields.Draft} → {values : fields.Carrier} → fields.finish draft = .ok values →
    fields.DraftHolds V depth draft → fields.Holds V depth values
  | .nil, _, _, _, _, _ => trivial
  | .cons key required shape rest, depth, (known, draft), values, h, hdraft => by
    obtain ⟨hknown, hrest⟩ := hdraft
    cases known with
    | some v =>
      obtain ⟨others, hothers, rfl⟩ := map_eq_ok.mp h
      exact ⟨hknown v rfl, Fields.holds_finish hnull rest hothers hrest⟩
    | none =>
      simp only [Fields.finish] at h
      split at h
      · simp at h
      · obtain ⟨others, hothers, rfl⟩ := map_eq_ok.mp h
        exact ⟨Shape.holds_blank hnull shape depth, Fields.holds_finish hnull rest hothers hrest⟩

/-! ### Readers -/

variable {α δ : Type} {P : α → Prop} {Q : δ → Prop} {depth : Nat}

theorem Takes.map {reader : List Char → Except Fault (α × List Char)} (h : Takes N P reader) {f : α → δ}
    (hf : ∀ v, P v → Q (f v)) : Takes N Q fun cs => (reader cs).map fun r => (f r.1, r.2) := by
  intro cs rest value hread hcs
  obtain ⟨⟨v, after⟩, hv, hsame⟩ := map_eq_ok.mp hread
  obtain ⟨rfl, rfl⟩ := Prod.mk.inj hsame
  obtain ⟨hvalue, hrest⟩ := h hv hcs
  exact ⟨hf v hvalue, hrest⟩

theorem takes_readList {item : List Char → Except Fault (α × List Char)} (hitem : Takes N P item)
    (fuel : Nat) (first : Bool) : Takes N (Each P) (readList item fuel first) := by
  induction fuel generalizing first with
  | zero => exact fun _ _ _ h _ => by simp [readList] at h
  | succ fuel ih =>
    intro cs rest values h hcs
    rw [readList] at h
    obtain ⟨ahead, hahead, h⟩ := bind_eq_ok.mp h
    cases ahead with
    | none =>
      obtain ⟨after, hafter, h⟩ := bind_eq_ok.mp h
      obtain ⟨rfl, rfl⟩ := Prod.mk.inj (Except.ok.inj h)
      exact ⟨fun _ hmem => absurd hmem List.not_mem_nil, hcs.of_eq (numberTexts_closeList hafter)⟩
    | some after =>
      obtain ⟨⟨value, left⟩, hvalue, h⟩ := bind_eq_ok.mp h
      obtain ⟨⟨others, last⟩, hothers, h⟩ := bind_eq_ok.mp h
      obtain ⟨rfl, rfl⟩ := Prod.mk.inj (Except.ok.inj h)
      obtain ⟨hv, hleft⟩ := hitem hvalue (hcs.of_eq (numberTexts_itemAhead hahead))
      obtain ⟨hvs, hlast⟩ := ih false hothers hleft
      exact ⟨List.forall_mem_cons.mpr ⟨hv, hvs⟩, hlast⟩

theorem takes_readRecord (hgives : ReadingGives N V)
    {field : String → δ → Option (List Char → Except Fault (δ × List Char))}
    (hfield : ∀ key draft reader, field key draft = some reader → Q draft → Takes N Q reader)
    (fuel : Nat) (first : Bool) {draft : δ} (hdraft : Q draft) :
    Takes N Q (readRecord field fuel first draft) := by
  induction fuel generalizing first draft with
  | zero => exact fun _ _ _ h _ => by simp [readRecord] at h
  | succ fuel ih =>
    intro cs rest filled h hcs
    rw [readRecord] at h
    obtain ⟨ahead, hahead, h⟩ := bind_eq_ok.mp h
    cases ahead with
    | none =>
      obtain ⟨rfl, rfl⟩ := Prod.mk.inj (Except.ok.inj h)
      exact ⟨hdraft, hcs⟩
    | some ahead =>
      obtain ⟨key, after⟩ := ahead
      have hafter := hcs.of_eq (numberTexts_keyAhead hahead)
      dsimp only at h
      split at h
      · next reader hreader =>
        obtain ⟨⟨next, left⟩, hnext, h⟩ := bind_eq_ok.mp h
        obtain ⟨hdraft, hleft⟩ := hfield key draft reader hreader hdraft hnext hafter
        exact ih false hdraft h hleft
      · obtain ⟨colon, hcolon, h⟩ := bind_eq_ok.mp h
        obtain ⟨left, hskip, h⟩ := bind_eq_ok.mp h
        have hleft := hgives.skip _ hskip (hafter.of_eq (numberTexts_readColon hcolon))
        exact ih false hdraft h hleft

theorem takes_readFields (hgives : ReadingGives N V) (fuel depth : Nat) :
    Takes N (FieldsHold (V depth)) (readFields fuel depth true []) := fun _ _ _ h hcs =>
  holds_readFields (fun less _ => hgives.read less) h hcs (.nil _)

theorem takes_text (depth : Nat) : Takes N (fun _ : String => True) (Shape.text.read depth) := by
  intro cs rest value h hcs
  have hstart := hcs.of_eq (numberTexts_skipSpace cs).symm
  unfold Shape.read at h
  dsimp only [Shape.Carrier] at h
  generalize skipSpace cs = start at h hstart
  split at h
  · exact ⟨trivial, hstart.of_eq (numberTexts_readString h)⟩
  · nomatch h

theorem takes_flag (depth : Nat) : Takes N (fun _ : Bool => True) (Shape.flag.read depth) := by
  intro cs rest value h hcs
  have hstart := hcs.of_eq (numberTexts_skipSpace cs).symm
  unfold Shape.read at h
  generalize skipSpace cs = start at h hstart
  split at h
  · obtain ⟨after, hword, hsame⟩ := map_eq_ok.mp h
    obtain ⟨-, rfl⟩ := Prod.mk.inj hsame
    exact ⟨trivial, (hstart.tail (by decide)).word (by decide) hword⟩
  · obtain ⟨after, hword, hsame⟩ := map_eq_ok.mp h
    obtain ⟨-, rfl⟩ := Prod.mk.inj hsame
    exact ⟨trivial, (hstart.tail (by decide)).word (by decide) hword⟩
  · nomatch h

theorem takes_any (hgives : ReadingGives N V) (depth : Nat) :
    Takes N (V depth) (Shape.any.read depth) :=
  fun cs _ _ h hcs => hgives.read (fuelFor cs) depth h hcs

theorem takes_table (hgives : ReadingGives N V) (depth : Nat) :
    Takes N (FieldsHold (V (depth - 1))) (Shape.table.read depth) := by
  intro cs rest value h hcs
  have hstart := hcs.of_eq (numberTexts_skipSpace cs).symm
  unfold Shape.read at h
  dsimp only [Shape.Carrier] at h
  generalize skipSpace cs = start at h hstart
  split at h
  · nomatch h
  · exact takes_readFields hgives _ _ h (hstart.tail (by decide))
  · nomatch h

theorem takes_list {item : Shape} (hitem : ∀ depth, Takes N (item.Holds V depth) (item.read depth))
    (depth : Nat) : Takes N (Each (item.Holds V (depth - 1))) ((Shape.list item).read depth) := by
  intro cs rest value h hcs
  have hstart := hcs.of_eq (numberTexts_skipSpace cs).symm
  unfold Shape.read at h
  dsimp only [Shape.Carrier] at h
  generalize skipSpace cs = start at h hstart
  split at h
  · nomatch h
  · exact takes_readList (hitem _) _ true h (hstart.tail (by decide))
  · nomatch h

theorem takes_optional {shape : Shape} {depth : Nat}
    (hshape : Takes N (shape.Holds V depth) (shape.read depth)) :
    Takes N ((Shape.optional shape).Holds V depth) ((Shape.optional shape).read depth) := by
  intro cs rest value h hcs
  have hstart := hcs.of_eq (numberTexts_skipSpace cs).symm
  unfold Shape.read at h
  generalize skipSpace cs = start at h hstart
  split at h
  · obtain ⟨after, hword, hsame⟩ := map_eq_ok.mp h
    obtain ⟨rfl, rfl⟩ := Prod.mk.inj hsame
    exact ⟨nofun, (hstart.tail (by decide)).word (by decide) hword⟩
  · refine hshape.map (Q := fun value => (Shape.optional shape).Holds V depth value) ?_ h hcs
    rintro v hv _ ⟨⟩
    exact hv

theorem takes_record (hgives : ReadingGives N V) {name : String} {fields : Fields}
    (hitems : ∀ depth total index, Takes N (fields.Holds V depth) (fields.readItems depth name total index))
    (hfield : ∀ depth key draft reader, fields.readField depth key draft = some reader →
      fields.DraftHolds V depth draft → Takes N (fields.DraftHolds V depth) reader) (depth : Nat) :
    Takes N ((Shape.record name fields).Holds V depth) ((Shape.record name fields).read depth) := by
  intro cs rest value h hcs
  have hstart := hcs.of_eq (numberTexts_skipSpace cs).symm
  unfold Shape.read at h
  generalize skipSpace cs = start at h hstart
  split at h
  · nomatch h
  · nomatch h
  · split at h
    · nomatch h
    · next hread =>
      obtain ⟨after, hclose, hsame⟩ := map_eq_ok.mp h
      obtain ⟨rfl, rfl⟩ := Prod.mk.inj hsame
      obtain ⟨hvalue, hleft⟩ := hitems _ _ _ hread (hstart.tail (by decide))
      exact ⟨hvalue, hleft.of_eq (numberTexts_closeList hclose)⟩
  · split at h
    · nomatch h
    · next hread =>
      split at h
      · nomatch h
      · next hfinish =>
        obtain ⟨after, hclose, hsame⟩ := map_eq_ok.mp h
        obtain ⟨rfl, rfl⟩ := Prod.mk.inj hsame
        obtain ⟨hdraft, hleft⟩ := takes_readRecord hgives (hfield _) _ true
          (fields.draftHolds_noneKnown _) hread (hstart.tail (by decide))
        exact ⟨fields.holds_finish hgives.null hfinish hdraft, hleft.of_eq (numberTexts_closeObject hclose)⟩
  · nomatch h

theorem takes_items_cons (hgives : ReadingGives N V) {key name : String} {required : Bool} {shape : Shape}
    {others : Fields} {depth total index : Nat} (hshape : Takes N (shape.Holds V depth) (shape.read depth))
    (hothers : Takes N (others.Holds V depth) (others.readItems depth name total (index + 1))) :
    Takes N ((Fields.cons key required shape others).Holds V depth)
      ((Fields.cons key required shape others).readItems depth name total index) := by
  intro cs rest values h hcs
  unfold Fields.readItems at h
  split at h
  · nomatch h
  · split at h
    · nomatch h
    · refine hothers.map (Q := fun values => (Fields.cons key required shape others).Holds V depth values)
        ?_ h hcs
      exact fun v hv => ⟨shape.holds_blank hgives.null depth, hv⟩
  · next hahead =>
    split at h
    · nomatch h
    · next v after hread =>
      obtain ⟨hv, hafter⟩ := hshape hread (hcs.of_eq (numberTexts_itemAhead hahead))
      refine hothers.map (Q := fun values => (Fields.cons key required shape others).Holds V depth values)
        ?_ h hafter
      exact fun vs hvs => ⟨hv, hvs⟩

theorem takes_field_cons {key name : String} {required : Bool} {shape : Shape} {others : Fields}
    {depth : Nat} {draft : (Fields.cons key required shape others).Draft}
    {reader : List Char → Except Fault ((Fields.cons key required shape others).Draft × List Char)}
    (hshape : Takes N (shape.Holds V depth) (shape.read depth))
    (hothers : ∀ draft reader, others.readField depth name draft = some reader →
      others.DraftHolds V depth draft → Takes N (others.DraftHolds V depth) reader)
    (h : (Fields.cons key required shape others).readField depth name draft = some reader)
    (hdraft : (Fields.cons key required shape others).DraftHolds V depth draft) :
    Takes N ((Fields.cons key required shape others).DraftHolds V depth) reader := by
  obtain ⟨known, values⟩ := draft
  obtain ⟨hknown, hvalues⟩ := hdraft
  change (if key = name then some _ else _) = _ at h
  split at h
  · obtain rfl := Option.some.inj h
    intro cs rest next h hcs
    dsimp only at h
    split at h
    · nomatch h
    · split at h
      · nomatch h
      · next hcolon =>
        have htakes := hshape.map (f := fun v => (some v, values))
          (Q := fun draft => (Fields.cons key required shape others).DraftHolds V depth draft)
          fun v hv => ⟨fun w hw => Option.some.inj hw ▸ hv, hvalues⟩
        exact htakes h (hcs.of_eq (numberTexts_readColon hcolon))
  · obtain ⟨inner, hinner, rfl⟩ := Option.map_eq_some_iff.mp h
    exact (hothers values inner hinner hvalues).map fun vs hvs => ⟨hknown, hvs⟩

mutual

/-- All values of a shape that was taken off a text are known to be as reading gives them. -/
theorem Shape.takes_read (hgives : ReadingGives N V) :
    (shape : Shape) → (depth : Nat) → Takes N (shape.Holds V depth) (shape.read depth)
  | .text, depth => takes_text depth
  | .flag, depth => takes_flag depth
  | .any, depth => takes_any hgives depth
  | .table, depth => takes_table hgives depth
  | .list item, depth => takes_list (Shape.takes_read hgives item) depth
  | .optional value, depth => takes_optional (Shape.takes_read hgives value depth)
  | .record name fields, depth =>
    takes_record hgives (fun depth => Fields.takes_readItems hgives fields depth name)
      (Fields.takes_readField hgives fields) depth

theorem Fields.takes_readItems (hgives : ReadingGives N V) :
    (fields : Fields) → (depth : Nat) → (name : String) → (total index : Nat) →
      Takes N (fields.Holds V depth) (fields.readItems depth name total index)
  | .nil, _, _, _, _ => fun _ _ _ h hcs => ⟨trivial, (Prod.mk.inj (Except.ok.inj h)).2 ▸ hcs⟩
  | .cons _ _ shape others, depth, name, total, index =>
    takes_items_cons hgives (Shape.takes_read hgives shape depth)
      (Fields.takes_readItems hgives others depth name total (index + 1))

theorem Fields.takes_readField (hgives : ReadingGives N V) :
    (fields : Fields) → (depth : Nat) → (name : String) → (draft : fields.Draft) →
      (reader : List Char → Except Fault (fields.Draft × List Char)) →
      fields.readField depth name draft = some reader → fields.DraftHolds V depth draft →
      Takes N (fields.DraftHolds V depth) reader
  | .nil, _, _, _, _, h, _ => nomatch h
  | .cons _ _ shape others, depth, name, _, _, h, hdraft =>
    takes_field_cons (Shape.takes_read hgives shape depth) (Fields.takes_readField hgives others depth name)
      h hdraft

end

theorem Shape.holds_parse (hgives : ReadingGives N V) {shape : Shape} {text : String}
    {value : shape.Carrier} (h : shape.parse text = .ok value) (htext : Numbers N text.toList) :
    shape.Holds V maxDepth value := by
  obtain ⟨⟨v, rest⟩, hread, h⟩ := bind_eq_ok.mp h
  obtain ⟨-, -, h⟩ := bind_eq_ok.mp h
  obtain rfl := Except.ok.inj h
  exact (shape.takes_read hgives maxDepth hread htext).1

end TaskDialogue.Json
