import TaskDialogue.Domain.Build
import TaskDialogue.Proofs.Json.ShapeValues

/-!
# Domains that are read

A domain file that was read gives each argument of an intent and each attribute of an entity once: a
repeated key of a table keeps its first place and takes the last value.
-/
namespace TaskDialogue.DomainSchema

theorem parse_eq_ok {text : String} {d : DomainSchema} :
    parse text = .ok d ↔ ∃ value, shape.parse text = .ok value ∧ ofCarrier value = d := by
  unfold parse
  cases shape.parse text <;> simp

/-- Arguments and attributes are given once. -/
structure KeysOnce (d : DomainSchema) : Prop where
  args : ∀ i ∈ d.intents, (i.args.map (·.1)).Nodup
  attributes : ∀ e ∈ d.entities, (e.attributes.map (·.1)).Nodup

theorem keysOnce_of_parse (h : parse text = .ok d) : d.KeysOnce := by
  obtain ⟨value, hvalue, rfl⟩ := parse_eq_ok.mp h
  have hholds := Json.Shape.holds_parse Json.readingGives_any hvalue fun _ _ => trivial
  obtain ⟨intents, entities, records, ⟨⟩⟩ := value
  obtain ⟨hintents, hentities, -, -⟩ := hholds
  constructor
  · intro i hi
    obtain ⟨v, hv, rfl⟩ := List.mem_map.mp hi
    obtain ⟨-, hargs, -⟩ := hintents v hv
    exact hargs.keys
  · intro e he
    obtain ⟨v, hv, rfl⟩ := List.mem_map.mp he
    obtain ⟨-, hattributes, -⟩ := hentities v hv
    exact hattributes.keys

end TaskDialogue.DomainSchema
