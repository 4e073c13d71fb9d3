import TaskDialogue.Proofs.Domain.Duplicates

/-!
# The queries of a domain

Every entity has a query, derived from it. But a name means the first command that is declared under
it, and intents are declared before queries are derived. So an intent whose command has the name of the
query stands in its place, and the entity can be queried when this intent is a query over it. Entities
of different names may have queries of one name, since commands are named in snake case.
-/
namespace TaskDialogue

namespace DomainSchema

/-! ### Where commands and entities come from -/

/-- The commands and the entities so far are contributions of intents or declared, and a name means
the command of the first intent that has it. -/
structure Progress.Made (p : Progress) (declared : List EntitySchema) (intents : List IntentSpec) :
    Prop where
  commands : ∀ s ∈ p.commands, ∃ i ∈ intents, ∃ stored, i.contribution = .ok (s, stored)
  entities : ∀ e ∈ p.entities, e ∈ declared ∨ ∃ i ∈ intents, ∃ s, i.contribution = .ok (s, some e)
  first : ∀ name i, intents.find? (fun i => Text.snakeCase i.command = name) = some i →
    ∃ c, i.contribution = .ok c ∧ p.commands.find? (·.name = name) = some c.1

theorem mem_addEntity {entities : List EntitySchema} {entity e : EntitySchema}
    (h : e ∈ addEntity entities entity) : e ∈ entities ∨ e = entity := by
  unfold addEntity at h
  split at h
  · exact .inl h
  · exact (List.mem_append.mp h).imp_right List.mem_singleton.mp

namespace Progress.Made

variable {p q : Progress} {declared : List EntitySchema} {intents : List IntentSpec} {i : IntentSpec}

/-- Without an intent of a name there is no command of it. -/
theorem find?_commands (h : p.Made declared intents) {name : String}
    (hnone : ∀ i ∈ intents, Text.snakeCase i.command ≠ name) :
    p.commands.find? (·.name = name) = none := by
  rw [List.find?_eq_none]
  intro s hs
  obtain ⟨i, hi, stored, hc⟩ := h.commands s hs
  simpa [(IntentSpec.contribution_cases hc).1] using hnone i hi

/-- An intent whose name an earlier one has changes nothing. -/
theorem skip (h : p.Made declared intents)
    (hdup : ∃ j ∈ intents, Text.snakeCase j.command = Text.snakeCase i.command) :
    p.Made declared (intents ++ [i]) := by
  refine ⟨fun s hs => ?_, fun e he => ?_, fun name j hj => ?_⟩
  · obtain ⟨j, hj, hs⟩ := h.commands s hs
    exact ⟨j, List.mem_append_left _ hj, hs⟩
  · refine (h.entities e he).imp_right ?_
    rintro ⟨j, hj, he⟩
    exact ⟨j, List.mem_append_left _ hj, he⟩
  · rw [List.find?_append, Option.or_eq_some_iff] at hj
    obtain hj | ⟨hnone, hj⟩ := hj
    · exact h.first name j hj
    · obtain ⟨k, hk, hsame⟩ := hdup
      obtain rfl := List.mem_singleton.mp (List.mem_of_find?_eq_some hj)
      have hname := List.find?_eq_none.mp hnone k hk
      rw [hsame] at hname
      exact absurd (List.find?_some hj) hname

theorem count {c : CommandSchema × Option EntitySchema} (h : p.Made declared intents)
    (hc : i.contribution = .ok c) : (p.count i.command c).Made declared (intents ++ [i]) := by
  obtain ⟨schema, stored⟩ := c
  have hlast : i ∈ intents ++ [i] := List.mem_append_right _ List.mem_cons_self
  have hold : ∀ e ∈ p.entities, e ∈ declared ∨
      ∃ j ∈ intents ++ [i], ∃ s, j.contribution = .ok (s, some e) := fun e he => by
    refine (h.entities e he).imp_right ?_
    rintro ⟨j, hj, he⟩
    exact ⟨j, List.mem_append_left _ hj, he⟩
  refine ⟨fun s hs => ?_, fun e he => ?_, fun name j hj => ?_⟩
  · obtain hs | hs := List.mem_append.mp hs
    · obtain ⟨j, hj, hs⟩ := h.commands s hs
      exact ⟨j, List.mem_append_left _ hj, hs⟩
    · exact ⟨i, hlast, stored, List.mem_singleton.mp hs ▸ hc⟩
  · cases stored with
    | none => exact hold e he
    | some entity =>
      obtain he | rfl := mem_addEntity he
      · exact hold e he
      · exact .inr ⟨i, hlast, schema, hc⟩
  · rw [List.find?_append, Option.or_eq_some_iff] at hj
    simp only [Progress.count, List.find?_append]
    obtain hj | ⟨hnone, hj⟩ := hj
    · obtain ⟨c, hcontribution, hfound⟩ := h.first name j hj
      exact ⟨c, hcontribution, by rw [hfound, Option.some_or]⟩
    · obtain rfl := List.mem_singleton.mp (List.mem_of_find?_eq_some hj)
      have hname : Text.snakeCase j.command = name := by simpa using List.find?_some hj
      have hmissing := h.find?_commands fun k hk => by
        simpa using List.find?_eq_none.mp hnone k hk
      refine ⟨_, hc, ?_⟩
      rw [hmissing, Option.none_or]
      simp [(IntentSpec.contribution_cases hc).1, hname]

theorem step (h : p.Made declared intents) (hp : p.Knows intents) (hq : addIntent p i = .ok q) :
    q.Made declared (intents ++ [i]) := by
  obtain ⟨hseen, rfl⟩ | ⟨-, c, hc, rfl⟩ := addIntent_cases hq
  · obtain ⟨j, hj, hsame⟩ := (hp.seen _).mp hseen
    exact h.skip ⟨j, hj, by rw [hsame]⟩
  · exact h.count hc

theorem run {before : List IntentSpec} (h : p.Made declared before) (hp : p.Knows before)
    (hq : addIntents intents p = .ok q) : q.Made declared (before ++ intents) := by
  induction intents generalizing p before with
  | nil =>
    obtain rfl := Except.ok.inj hq
    rwa [List.append_nil]
  | cons i rest ih =>
    obtain ⟨p', hp', hrest⟩ := addIntents_cons_ok.mp hq
    rw [List.append_cons]
    exact ih (h.step hp hp') (hp.step hp') hrest

end Progress.Made

theorem made_progress {d : DomainSchema} {p : Progress} (h : d.progress = .ok p) :
    ∃ declared, declaredEntities d.entities [] = .ok declared ∧ p.Made declared d.intents := by
  obtain ⟨declared, hdeclared, hadd⟩ := bind_eq_ok.mp h
  have hmade : (⟨[], [], declared⟩ : Progress).Made declared [] := ⟨by simp, by simp, by simp⟩
  exact ⟨declared, hdeclared, hmade.run ⟨by simp, by simp⟩ hadd⟩

/-! ### Queries -/

end DomainSchema

namespace IntentSpec

variable {i : IntentSpec} {schema : CommandSchema} {stored : Option EntitySchema}

theorem kind_toSchema (h : i.toSchema = .ok schema) : schema.kind = .intent := by
  obtain ⟨args, -, hslots⟩ := bind_eq_ok.mp h
  dsimp only at hslots
  split at hslots
  · simp at hslots
  · rw [← Except.ok.inj hslots]

/-- The command of an intent is a query over an entity when the intent says so. -/
theorem contribution_query_iff (h : i.contribution = .ok (schema, stored)) (entity : String) :
    schema.kind = .query entity ↔ i.queryIntent = true ∧ i.entityName = some entity := by
  obtain ⟨made, hmade, hcases⟩ := contribution_inv h
  have hkind := kind_toSchema hmade
  obtain ⟨known, hquery, hname, rfl, -⟩ | ⟨hquery, rfl, -⟩ := hcases
  · simp [hquery, hname]
  · simp [hkind, hquery]

end IntentSpec

namespace DomainSchema

variable {d : DomainSchema} {D : Domain} {e : EntitySchema} {earlier later : List EntitySchema}

/-- No auxiliary command has the name of a query. -/
theorem find?_auxiliary (entity : String) :
    Registry.auxiliary.find? (·.name = Text.snakeCase ("find_" ++ entity)) = none := by
  have hhead : (Text.snakeCase ("find_" ++ entity)).toList.head? = some 'f' := by
    simp [Text.snakeCase, Text.snakeChars]
  have hothers : ∀ s ∈ Registry.auxiliary, s.name.toList.head? ≠ some 'f' := by decide
  rw [List.find?_eq_none]
  intro s hs hname
  exact hothers s hs (by rw [of_decide_eq_true hname, hhead])

/-- Among derived queries a name means the query of the first entity whose query has it. -/
theorem find?_query (hentities : ∀ other ∈ earlier,
      Text.snakeCase ("find_" ++ other.name) ≠ Text.snakeCase ("find_" ++ e.name)) :
    ((earlier ++ e :: later).map CommandSchema.query).find?
      (·.name = Text.snakeCase ("find_" ++ e.name)) = some (.query e) := by
  have hearlier : (earlier.map CommandSchema.query).find?
      (·.name = Text.snakeCase ("find_" ++ e.name)) = none := by
    rw [List.find?_eq_none, List.forall_mem_map]
    exact fun other hother hname => hentities other hother (of_decide_eq_true hname)
  rw [List.map_append, List.find?_append, hearlier, Option.none_or, List.map_cons]
  exact List.find?_cons_of_pos (by simp [CommandSchema.query])

/-- The name of an entity's query means a command. When intents have this name too it is the command
of the first of them, which is a query over the entity if the intent is one. When none has it and no
earlier entity has a query of this name, it is the query that is derived from the entity. -/
theorem query_of_entity (hbuild : d.build = .ok D) (hentities : D.entities = earlier ++ e :: later) :
    let name := Text.snakeCase ("find_" ++ e.name)
    ∃ schema, D.registry.get? name = some schema ∧
      (∀ i, d.intents.find? (fun i => Text.snakeCase i.command = name) = some i →
        (∃ stored, i.contribution = .ok (schema, stored)) ∧
          (schema.kind = .query e.name ↔ i.queryIntent = true ∧ i.entityName = some e.name)) ∧
      ((∀ i ∈ d.intents, Text.snakeCase i.command ≠ name) →
        (∀ other ∈ earlier, Text.snakeCase ("find_" ++ other.name) ≠ name) → schema = .query e) := by
  intro name
  obtain ⟨p, hp, context, -, rfl⟩ := build_eq_ok.mp hbuild
  obtain ⟨declared, -, hmade⟩ := made_progress hp
  have hget : p.registry.get? name = (p.commands.find? (·.name = name)).or
      ((p.entities.map CommandSchema.query).find? (·.name = name)) := by
    rw [Progress.registry, Registry.get?_ofSchemas, List.find?_append, List.find?_append,
      find?_auxiliary, Option.none_or]
  change p.entities = _ at hentities
  cases hfirst : d.intents.find? (fun i => Text.snakeCase i.command = name) with
  | some i =>
    obtain ⟨⟨schema, stored⟩, hc, hfound⟩ := hmade.first name i hfirst
    refine ⟨schema, by rw [hget, hfound, Option.some_or], ?_, fun hnone _ => ?_⟩
    · rintro _ ⟨⟩
      exact ⟨⟨stored, hc⟩, IntentSpec.contribution_query_iff hc e.name⟩
    · have hname := List.find?_some hfirst
      exact absurd (of_decide_eq_true hname) (hnone i (List.mem_of_find?_eq_some hfirst))
  | none =>
    have hnone : ∀ i ∈ d.intents, Text.snakeCase i.command ≠ name := fun i hi => by
      simpa using List.find?_eq_none.mp hfirst i hi
    rw [hmade.find?_commands hnone, Option.none_or, hentities] at hget
    obtain ⟨schema, hschema⟩ : ∃ schema, p.registry.get? name = some schema := by
      rw [hget, ← Option.isSome_iff_exists, List.find?_isSome]
      exact ⟨.query e, by simp, by simp [CommandSchema.query, name]⟩
    refine ⟨schema, hschema, by simp, fun _ hearlier => ?_⟩
    rw [hget, find?_query hearlier] at hschema
    exact (Option.some.inj hschema).symm

/-- Alarms are stored by an intent, and contacts have a query of their own. -/
theorem query_of_entity_alarm :
    let d : DomainSchema := ⟨[⟨"CreateAlarm", [], false, none, false, some "alarm", []⟩,
      ⟨"FindContact", [], false, none, true, some "contact", []⟩], [⟨"contact", []⟩], []⟩
    ∃ D, d.build = .ok D ∧
      D.registry.get? "find_alarm" = some (.query ⟨"alarm", [("date_of_alarm", .str)]⟩) := by
  intro d
  have hnames : ∀ i ∈ d.intents, Text.snakeCase i.command ≠ "find_alarm" := by decide
  obtain ⟨D, hD, hentities⟩ : ∃ D, d.build = .ok D ∧
      D.entities = [⟨"contact", []⟩] ++ ⟨"alarm", [("date_of_alarm", .str)]⟩ :: [] := by
    refine ⟨_, rfl, rfl⟩
  obtain ⟨schema, hget, -, hderived⟩ := query_of_entity hD hentities
  rw [hderived hnames (by decide)] at hget
  exact ⟨D, hD, hget⟩

/-- Alarms are stored, but to find them is a task of its own. -/
theorem entity_without_query :
    let d : DomainSchema := ⟨[⟨"find_alarm", [], false, none, false, none, []⟩], [⟨"alarm", []⟩], []⟩
    ¬∀ D, d.build = .ok D → ∀ e ∈ D.entities, ∃ schema,
      D.registry.get? (Text.snakeCase ("find_" ++ e.name)) = some schema ∧
        schema.kind = .query e.name := by
  intro d h
  obtain ⟨schema, hget, hkind⟩ := h _ rfl ⟨"alarm", []⟩ (by decide)
  have hschema := Option.some.inj (hget.symm.trans rfl)
  rw [hschema] at hkind
  exact absurd hkind (by decide)

end DomainSchema

end TaskDialogue
