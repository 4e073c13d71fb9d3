import TaskDialogue.Proofs.Domain.Reading
import TaskDialogue.Proofs.Json.ShapeRoundTrip

/-!
# The canonical text of a domain

The version of a domain is taken from its canonical text. This text describes the same domain again:
descriptors are written with their fields in the order of declaration, arguments and attributes as they
were read, and only what reading fills in by itself is left out.
-/
namespace TaskDialogue

open Json (Shape Fields Readable)

/-- A field of an object that may be left out. -/
theorem Json.Fields.writes_cons {key : String} {required : Bool} {shape : Shape} {others : Fields}
    {depth : Nat} {value : shape.Carrier} {values : others.Carrier} {given : Option Json}
    {fields : List (String × Option Json)}
    (hgiven : (given = none ∧ required = false ∧ value = shape.blank) ∨
      ∃ j, given = some j ∧ shape.Writes depth value j)
    (hothers : others.Writes depth values (fields.filterMap fun f => f.2.map (f.1, ·))) :
    (Fields.cons key required shape others).Writes depth (value, values)
      (((key, given) :: fields).filterMap fun f => f.2.map (f.1, ·)) := by
  obtain ⟨rfl, hrequired, hblank⟩ | ⟨j, rfl, hj⟩ := hgiven
  · exact .inl ⟨hrequired, hblank, hothers⟩
  · exact .inr ⟨j, _, rfl, hj, hothers⟩

variable {depth : Nat}

/-- A text that may be missing is left out when it is. -/
theorem Json.Shape.writes_text? (given : Option String) :
    (given.map Json.string = none ∧ false = false ∧ given = (Shape.optional .text).blank) ∨
      ∃ j, given.map Json.string = some j ∧ (Shape.optional .text).Writes depth given j := by
  cases given with
  | none => exact .inl ⟨rfl, rfl, rfl⟩
  | some s => exact .inr ⟨_, rfl, .inr ⟨s, rfl, nofun, rfl⟩⟩

theorem Json.Shape.writes_texts (texts : List String) :
    (Shape.list .text).Writes (depth + 1) texts (Json.ofStrings texts) :=
  ⟨depth, _, rfl, rfl, List.forall₂_map_right_iff.mpr (List.forall₂_same.mpr fun _ _ => rfl)⟩

theorem IntentSpec.writes_toJson {value : IntentSpec.shape.Carrier}
    (h : IntentSpec.shape.Holds Readable (depth + 3) value) :
    IntentSpec.shape.Writes (depth + 3) value (IntentSpec.ofCarrier value).toJson := by
  obtain ⟨command, args, confirmation, description, query, entityName, positional, ⟨⟩⟩ := value
  obtain ⟨-, hargs, -⟩ := h
  refine ⟨depth + 2, _, rfl, rfl, by decide, ?_⟩
  refine Fields.writes_cons (.inr ⟨_, rfl, rfl⟩) ?_
  refine Fields.writes_cons (.inr ⟨_, rfl, rfl, .object hargs.keys hargs.values⟩) ?_
  refine Fields.writes_cons (.inr ⟨_, rfl, rfl⟩) ?_
  refine Fields.writes_cons (Shape.writes_text? description) ?_
  refine Fields.writes_cons (.inr ⟨_, rfl, rfl⟩) ?_
  refine Fields.writes_cons (Shape.writes_text? entityName) ?_
  refine Fields.writes_cons ?_ rfl
  change List String at positional
  cases positional with
  | nil => exact .inl ⟨rfl, rfl, rfl⟩
  | cons name names => exact .inr ⟨_, rfl, Shape.writes_texts (name :: names)⟩

theorem EntitySpec.writes_toJson {value : EntitySpec.shape.Carrier}
    (h : EntitySpec.shape.Holds Readable (depth + 3) value) :
    EntitySpec.shape.Writes (depth + 3) value (EntitySpec.ofCarrier value).toJson := by
  obtain ⟨entity, attributes, ⟨⟩⟩ := value
  obtain ⟨-, hattributes, -⟩ := h
  refine ⟨depth + 2, _, rfl, rfl, by decide, ?_⟩
  exact .inr ⟨_, _, rfl, rfl, .inr ⟨_, _, rfl, ⟨rfl, .object hattributes.keys hattributes.values⟩, rfl⟩⟩

namespace DomainSchema

/-- A list of descriptors is written item by item. -/
theorem writes_list {shape : Shape} {α : Type} {ofCarrier : shape.Carrier → α} {toJson : α → Json}
    {values : List shape.Carrier}
    (h : ∀ value ∈ values, shape.Writes depth value (toJson (ofCarrier value))) :
    (Shape.list shape).Writes (depth + 1) values (.array ((values.map ofCarrier).map toJson)) :=
  ⟨depth, _, rfl, rfl, by
    rw [List.map_map]
    exact List.forall₂_map_right_iff.mpr (List.forall₂_same.mpr h)⟩

theorem writes_toJson {value : shape.Carrier} (h : shape.Holds Readable (depth + 5) value) :
    shape.Writes (depth + 5) value (ofCarrier value).toJson := by
  obtain ⟨intents, entities, records, ⟨⟩⟩ := value
  obtain ⟨hintents, hentities, -, -⟩ := h
  refine ⟨depth + 4, _, rfl, rfl, by decide, ?_⟩
  refine .inr ⟨_, _, rfl, writes_list fun v hv => IntentSpec.writes_toJson (hintents v hv), ?_⟩
  refine .inr ⟨_, _, rfl, writes_list fun v hv => EntitySpec.writes_toJson (hentities v hv), ?_⟩
  exact .inr ⟨_, _, rfl, Shape.writes_texts records, rfl⟩

/-- The canonical text of a domain, whose own text has whole numbers only, describes the same domain. So
its canonical text is again this text, and it builds into the same domain with the same version, or
fails for the same reason. -/
theorem parse_canonical {text : String} {d : DomainSchema} (h : parse text = .ok d)
    (hnumbers : ∀ number ∈ Json.numberTexts text.toList, Json.IsWhole number) :
    parse d.canonical = .ok d ∧ (parse d.canonical).map canonical = .ok d.canonical ∧
      (parse d.canonical).map version = .ok d.version ∧ (parse d.canonical >>= build) = d.build := by
  obtain ⟨value, hvalue, rfl⟩ := parse_eq_ok.mp h
  have hholds := Shape.holds_parse Json.readingGives_readable hvalue hnumbers
  have hparse : parse (ofCarrier value).canonical = .ok (ofCarrier value) :=
    parse_eq_ok.mpr ⟨value, Shape.parse_compact (writes_toJson hholds), rfl⟩
  rw [hparse]
  exact ⟨rfl, rfl, rfl, rfl⟩

/-- A call whose argument is given twice. -/
theorem parse_canonical_call :
    let text := "[[[\"Call\", \x7b\"n\": 5, \"n\": -7\x7d]]]"
    ∃ d, parse text = .ok d ∧ d.canonical =
        "\x7b\"intents\":[\x7b\"command\":\"Call\",\"args\":\x7b\"n\":-7\x7d," ++
          "\"confirmation_required\":false,\"query_intent\":false\x7d],\"entities\":[],\"records\":[]\x7d" ∧
      parse d.canonical = .ok d := by
  intro text
  have hcanonical : (parse text).toOption.map canonical = some (
      "\x7b\"intents\":[\x7b\"command\":\"Call\",\"args\":\x7b\"n\":-7\x7d," ++
        "\"confirmation_required\":false,\"query_intent\":false\x7d],\"entities\":[],\"records\":[]\x7d") := by
    decide +kernel
  have hnumbers : ∀ number ∈ Json.numberTexts text.toList, Json.IsWhole number := by
    have htexts : Json.numberTexts text.toList = [['5'], ['-', '7']] := by decide +kernel
    rw [htexts]
    simp only [List.forall_mem_cons]
    exact ⟨⟨5, by decide, by decide⟩, ⟨-7, by decide, by decide⟩, by simp⟩
  cases hparse : parse text with
  | error e => simp [hparse, Except.toOption] at hcanonical
  | ok d =>
    rw [hparse] at hcanonical
    exact ⟨d, rfl, Option.some.inj hcanonical, (parse_canonical hparse hnumbers).1⟩

end DomainSchema

end TaskDialogue
