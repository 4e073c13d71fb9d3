import TaskDialogue.Proofs.Transcript.Trim
import TaskDialogue.Proofs.Domain.Slots

/-!
# Types as they are printed

A type is printed as a tag. The types with a name of their own have tags that name them. A type of
objects is printed as its name, and that is what was left of the tag it was read from: without blanks
around it and out of every `Optional[...]`. So it is read as before, and whatever a type was read from,
its printed text names it too. The types in the signature of a command are printed so, and the types of
a domain are all read from tags but for those of the slots that are added to what it declares.
-/
namespace TaskDialogue

namespace SlotType

/-- The type is read back from its printed text. -/
def Legible (ty : SlotType) : Prop := ofTag ty.display = ty

variable {tag : List Char}

/-- A tag that nothing is taken off. -/
theorem ofTagChars_plain (htrim : Text.trim tag = tag) (hplain : optionalInner? tag = none) :
    ofTagChars tag = ofPlainTag tag := by
  rw [ofTagChars]
  split
  · next hinner =>
    rw [htrim, hplain] at hinner
    cases hinner
  · rw [htrim]

theorem legible_of_named {ty : SlotType} (h : ∀ name, ty ≠ object name) : ty.Legible := by
  cases ty with
  | object name => exact absurd rfl (h name)
  | str | int | float | bool | list | any =>
    exact (ofTagChars_plain (by decide) (by decide)).trans (by decide)

theorem legible_str : str.Legible := legible_of_named nofun

theorem named?_ne_object (tag name : String) : named? tag ≠ some (object name) := by
  unfold named?
  split
  all_goals simp

/-- Objects have the plain tag as the name of their type. -/
theorem eq_of_ofPlainTag_eq_object {name : String} (h : ofPlainTag tag = object name) :
    name = String.ofList tag := by
  unfold ofPlainTag at h
  split at h
  · next hnamed => exact absurd (h ▸ hnamed) (named?_ne_object _ name)
  · split at h
    · cases h
    · exact (object.inj h).symm

theorem legible_ofPlainTag (htrim : Text.trim tag = tag) (hplain : optionalInner? tag = none) :
    (ofPlainTag tag).Legible := by
  cases hty : ofPlainTag tag with
  | object name =>
    obtain rfl := eq_of_ofPlainTag_eq_object hty
    rw [Legible, display, ofTag, String.toList_ofList, ofTagChars_plain htrim hplain, hty]
  | str | int | float | bool | list | any => exact legible_of_named nofun

/-- By induction on the brackets around a tag: in the innermost stands a plain tag. -/
theorem legible_ofTagChars (tag : List Char) : (ofTagChars tag).Legible := by
  induction tag using ofTagChars.induct with
  | case1 tag inner h _ ih =>
    rw [ofTagChars]
    split
    · next found hfound =>
      obtain rfl := Option.some.inj (h.symm.trans hfound)
      exact ih
    · next hnone =>
      rw [h] at hnone
      cases hnone
  | case2 tag h =>
    have htrim : Text.trim (Text.trim tag) = Text.trim tag := (Text.Trimmed.trim tag).trim_eq
    rw [ofTagChars]
    split
    · next hfound =>
      rw [h] at hfound
      cases hfound
    · exact legible_ofPlainTag htrim h

theorem legible_ofTag (tag : String) : (ofTag tag).Legible := legible_ofTagChars tag.toList

end SlotType

/-! ### The types of a domain -/

/-- All types in the signature of a command are read back from their texts. -/
def CommandSchema.Legible (schema : CommandSchema) : Prop := ∀ slot ∈ schema.slots, slot.type.Legible

def EntitySchema.Legible (entity : EntitySchema) : Prop := ∀ a ∈ entity.attributes, a.2.Legible

theorem IntentSpec.legible_toSchema {i : IntentSpec} {schema : CommandSchema}
    (h : i.toSchema = .ok schema) : schema.Legible := by
  obtain ⟨args, -, h⟩ := bind_eq_ok.mp h
  dsimp only at h
  split at h
  · cases h
  · obtain rfl := Except.ok.inj h
    exact List.forall_mem_map.mpr fun arg _ => SlotType.legible_ofTag arg.2.type

theorem IntentSpec.legible_contribution {i : IntentSpec} {schema : CommandSchema}
    {stored : Option EntitySchema} (h : i.contribution = .ok (schema, stored)) : schema.Legible := by
  obtain ⟨made, hmade, hcases⟩ := contribution_inv h
  have hlegible := legible_toSchema hmade
  obtain ⟨entity, -, -, rfl, -⟩ | ⟨-, rfl, -⟩ := hcases
  · exact hlegible
  · exact hlegible

theorem IntentSpec.legible_toEntity {i : IntentSpec} {entity : EntitySchema}
    (h : i.toEntity = .ok entity) : entity.Legible := by
  unfold toEntity at h
  split at h
  · cases h
  · obtain ⟨args, -, h⟩ := bind_eq_ok.mp h
    obtain rfl := Except.ok.inj h
    refine List.forall_mem_append.mpr ⟨?_, List.forall_mem_singleton.mpr ?_⟩
    · exact List.forall_mem_map.mpr fun arg _ => SlotType.legible_ofTag arg.2.type
    · exact SlotType.legible_str

theorem EntitySpec.legible_toSchema {spec : EntitySpec} {entity : EntitySchema}
    (h : spec.toSchema = .ok entity) : entity.Legible := by
  obtain ⟨attributes, hattributes, h⟩ := bind_eq_ok.mp h
  obtain rfl := Except.ok.inj h
  intro a ha
  obtain ⟨⟨name, raw⟩, -, hread⟩ := exists_of_mapM hattributes ha
  dsimp only at hread
  split at hread
  · obtain rfl := Except.ok.inj hread
    exact SlotType.legible_ofTag _
  · cases hread

theorem CommandSchema.legible_query {entity : EntitySchema} (h : entity.Legible) :
    (query entity).Legible :=
  List.forall_mem_cons.mpr ⟨SlotType.legible_str, List.forall_mem_map.mpr h⟩

theorem Registry.legible_auxiliary : ∀ schema ∈ auxiliary, schema.Legible := by
  have htypes : ∀ schema ∈ auxiliary, ∀ slot ∈ schema.slots, slot.type = .str ∨ slot.type = .any := by
    decide
  intro schema hschema slot hslot
  obtain htype | htype := htypes schema hschema slot hslot
  · exact htype ▸ SlotType.legible_str
  · exact htype ▸ SlotType.legible_of_named nofun

namespace DomainSchema

variable {d : DomainSchema} {D : Domain} {schema : CommandSchema}

theorem legible_of_build (hbuild : d.build = .ok D) (hschema : schema ∈ D.registry.schemas) :
    schema.Legible := by
  obtain ⟨p, hp, context, -, rfl⟩ := build_eq_ok.mp hbuild
  obtain hauxiliary | ⟨i, -, stored, hc⟩ | ⟨e, he, rfl⟩ := schemas_cases hp hschema
  · exact Registry.legible_auxiliary schema hauxiliary
  · exact IntentSpec.legible_contribution hc
  · refine CommandSchema.legible_query ?_
    obtain ⟨declared, hdeclared, hmade⟩ := made_progress hp
    obtain he | ⟨i, -, schema, hc⟩ := hmade.entities e he
    · obtain hnone | ⟨spec, -, hspec⟩ := mem_declaredEntities hdeclared he
      · exact absurd hnone List.not_mem_nil
      · exact EntitySpec.legible_toSchema hspec
    · exact IntentSpec.legible_toEntity (IntentSpec.toEntity_of_contribution hc)

end DomainSchema

/-- Whatever tag a type is read from, it is read again from the text that it is printed as. In a domain
the signature of every command is put together from the names of its slots and texts from which their
types are read. -/
theorem DomainSchema.types_legible :
    (∀ tag, SlotType.ofTag (SlotType.ofTag tag).display = SlotType.ofTag tag) ∧
      ∀ (d : DomainSchema) (D : Domain), d.build = .ok D → ∀ schema ∈ D.registry.schemas,
        ∃ printed : List (String × String),
          schema.signature = schema.name ++ "(" ++
            ", ".intercalate (printed.map fun slot => slot.1 ++ ": " ++ slot.2) ++ ")" ∧
          printed.map (fun slot => (slot.1, SlotType.ofTag slot.2)) =
            schema.slots.map (fun slot => (slot.name, slot.type)) := by
  refine ⟨SlotType.legible_ofTag, fun d D hbuild schema hschema => ?_⟩
  refine ⟨schema.slots.map fun slot => (slot.name, slot.type.display), ?_, ?_⟩
  · rw [CommandSchema.signature, List.map_map]
    rfl
  · rw [List.map_map]
    refine List.map_congr_left fun slot hslot => ?_
    rw [Function.comp_apply, legible_of_build hbuild hschema slot hslot]

/-- A wrapped name with blanks around it. -/
theorem DomainSchema.types_legible_contact :
    let text := "\x7b\"intents\": [\x7b\"command\": \"CallContact\", " ++
      "\"args\": \x7b\"who\": \x7b\"type\": \"Optional[ Contact ]\"\x7d\x7d\x7d]\x7d"
    ∃ d D, parse text = .ok d ∧ d.build = .ok D ∧ ∃ schema ∈ D.registry.schemas,
      ∃ printed : List (String × String),
        schema.signature = schema.name ++ "(" ++
          ", ".intercalate (printed.map fun slot => slot.1 ++ ": " ++ slot.2) ++ ")" ∧
        printed.map (fun slot => (slot.1, SlotType.ofTag slot.2)) = [("who", .object "Contact")] := by
  intro text
  have hoffers : Offers text [("who", .object "Contact")] = true := by decide +kernel
  obtain ⟨d, D, hparse, hbuild, schema, hschema, hslots⟩ := exists_of_offers hoffers
  obtain ⟨printed, hsignature, hprinted⟩ := types_legible.2 d D hbuild schema hschema
  exact ⟨d, D, hparse, hbuild, schema, hschema, printed, hsignature, hprinted.trans hslots⟩

end TaskDialogue
