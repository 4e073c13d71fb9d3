import TaskDialogue.Domain.Build
import TaskDialogue.Proofs.Store.Writes
import TaskDialogue.Proofs.Task.Registry

/-!
# Duplicate intents

Commands are told apart by their names in snake case, and the first of a name counts. Whether an
intent is a duplicate is found out by what is written for its command, before the name is put in
snake case. So an intent that writes the command of an earlier one in another way is not skipped: its
command does not count, but the entity that it stores does. Without such an intent a domain is the
same one exactly when its entities are.
-/
namespace TaskDialogue

/-! ### What an intent adds -/

namespace IntentSpec

/-- The command of an intent, and the entity that it stores. -/
def contribution (i : IntentSpec) : Except SchemaError (CommandSchema × Option EntitySchema) := do
  let schema ← i.toSchema
  match i.queryIntent, i.entityName with
  | true, none => .error (.missingEntityName i.command)
  | true, some entity => return ({ schema with kind := .query entity }, none)
  | false, none => return (schema, none)
  | false, some _ => return (schema, some (← i.toEntity))

variable {i : IntentSpec} {schema : CommandSchema} {stored : Option EntitySchema}

theorem name_toSchema (h : i.toSchema = .ok schema) : schema.name = Text.snakeCase i.command := by
  obtain ⟨args, -, hslots⟩ := bind_eq_ok.mp h
  dsimp only at hslots
  split at hslots
  · simp at hslots
  · rw [← Except.ok.inj hslots]

theorem name_toEntity {entity : EntitySchema} (h : i.toEntity = .ok entity) :
    i.entityName = some entity.name := by
  unfold toEntity at h
  split at h
  · simp at h
  · next name hname =>
    obtain ⟨args, -, hentity⟩ := bind_eq_ok.mp h
    rw [hname, ← Except.ok.inj hentity]

/-- A query intent turns its command into a query, and any other intent that names an entity stores
it. -/
theorem contribution_inv (h : i.contribution = .ok (schema, stored)) :
    ∃ made, i.toSchema = .ok made ∧
      ((∃ entity, i.queryIntent = true ∧ i.entityName = some entity ∧
          schema = { made with kind := .query entity } ∧ stored = none) ∨
        (i.queryIntent = false ∧ schema = made ∧
          (stored = none ∨ ∃ entity, i.toEntity = .ok entity ∧ stored = some entity))) := by
  obtain ⟨made, hmade, h⟩ := bind_eq_ok.mp h
  refine ⟨made, hmade, ?_⟩
  split at h
  · simp at h
  · next entity hquery hname =>
    obtain ⟨rfl, rfl⟩ := Prod.mk.inj (Except.ok.inj h)
    exact .inl ⟨entity, hquery, hname, rfl, rfl⟩
  · next hquery _ =>
    obtain ⟨rfl, rfl⟩ := Prod.mk.inj (Except.ok.inj h)
    exact .inr ⟨hquery, rfl, .inl rfl⟩
  · next hquery _ =>
    obtain ⟨entity, hentity, h⟩ := bind_eq_ok.mp h
    obtain ⟨rfl, rfl⟩ := Prod.mk.inj (Except.ok.inj h)
    exact .inr ⟨hquery, rfl, .inr ⟨entity, hentity, rfl⟩⟩

/-- The command has the name of the intent in snake case, and an entity is stored by an intent that
is no query and names it. -/
theorem contribution_cases (h : i.contribution = .ok (schema, stored)) :
    schema.name = Text.snakeCase i.command ∧
      ∀ entity, stored = some entity → i.queryIntent = false ∧ i.entityName = some entity.name := by
  obtain ⟨made, hmade, hcases⟩ := contribution_inv h
  have hname := name_toSchema hmade
  obtain ⟨entity, -, -, rfl, rfl⟩ | ⟨hquery, rfl, rfl | ⟨entity, hentity, rfl⟩⟩ := hcases
  · exact ⟨hname, by simp⟩
  · exact ⟨hname, by simp⟩
  · refine ⟨hname, ?_⟩
    rintro _ ⟨⟩
    exact ⟨hquery, name_toEntity hentity⟩

end IntentSpec

namespace DomainSchema

/-- The progress after an intent that counts. -/
def Progress.count (p : Progress) (command : String) (c : CommandSchema × Option EntitySchema) : Progress :=
  ⟨p.seen ++ [command], p.commands ++ [c.1], c.2.elim p.entities (addEntity p.entities)⟩

/-- An intent that is not skipped adds the same whatever came before it. -/
theorem addIntent_eq (p : Progress) (i : IntentSpec) :
    addIntent p i =
      if i.command ∈ p.seen then .ok p else i.contribution.map (p.count i.command) := by
  unfold addIntent IntentSpec.contribution
  by_cases hseen : i.command ∈ p.seen
  · simp [hseen]
  · simp only [List.contains_eq_mem, hseen, decide_false, Bool.false_eq_true, if_false]
    cases i.toSchema with
    | error e => rfl
    | ok schema =>
      cases hquery : i.queryIntent <;> cases hentity : i.entityName <;>
        simp only [bind, Except.bind, pure, Except.pure, Except.map]
      · rfl
      · cases i.toEntity <;> rfl
      · rfl

/-- An intent is skipped, or counts. -/
theorem addIntent_cases {p p' : Progress} {i : IntentSpec} (h : addIntent p i = .ok p') :
    (i.command ∈ p.seen ∧ p' = p) ∨
      (i.command ∉ p.seen ∧ ∃ c, i.contribution = .ok c ∧ p' = p.count i.command c) := by
  rw [addIntent_eq] at h
  split at h
  · next hseen => exact .inl ⟨hseen, (Except.ok.inj h).symm⟩
  · next hnew =>
    obtain ⟨c, hc, rfl⟩ := map_eq_ok.mp h
    exact .inr ⟨hnew, c, hc, rfl⟩

theorem addIntents_cons_ok {p p' : Progress} {i : IntentSpec} {rest : List IntentSpec} :
    addIntents (i :: rest) p = .ok p' ↔ ∃ q, addIntent p i = .ok q ∧ addIntents rest q = .ok p' := by
  rw [addIntents]
  cases addIntent p i <;> simp

theorem addIntents_append (first rest : List IntentSpec) (p : Progress) :
    addIntents (first ++ rest) p = addIntents first p >>= addIntents rest := by
  induction first generalizing p with
  | nil => rfl
  | cons i first ih =>
    rw [List.cons_append, addIntents, addIntents]
    cases addIntent p i with
    | error e => rfl
    | ok q => exact ih q

/-- The command of every intent so far was seen, and its name is taken. -/
structure Progress.Knows (p : Progress) (intents : List IntentSpec) : Prop where
  seen : ∀ command, command ∈ p.seen ↔ ∃ i ∈ intents, i.command = command
  taken : ∀ i ∈ intents, (p.commands.find? (·.name = Text.snakeCase i.command)).isSome

theorem Progress.Knows.step {p q : Progress} {before : List IntentSpec} {i : IntentSpec}
    (hp : p.Knows before) (h : addIntent p i = .ok q) : q.Knows (before ++ [i]) := by
  obtain ⟨hseen, rfl⟩ | ⟨-, ⟨schema, stored⟩, hc, rfl⟩ := addIntent_cases h
  · obtain ⟨j, hj, hsame⟩ := (hp.seen _).mp hseen
    refine ⟨fun command => ?_, List.forall_mem_append.mpr ⟨hp.taken, ?_⟩⟩
    · rw [hp.seen]
      constructor
      · rintro ⟨k, hk, hcommand⟩
        exact ⟨k, List.mem_append_left _ hk, hcommand⟩
      · rintro ⟨k, hk, hcommand⟩
        obtain hk | hk := List.mem_append.mp hk
        · exact ⟨k, hk, hcommand⟩
        · exact ⟨j, hj, by rw [hsame, ← hcommand, List.mem_singleton.mp hk]⟩
    · rw [List.forall_mem_singleton, ← hsame]
      exact hp.taken j hj
  · have hname := (IntentSpec.contribution_cases hc).1
    refine ⟨fun command => ?_, List.forall_mem_append.mpr ⟨fun j hj => ?_, ?_⟩⟩
    · simp only [Progress.count, List.mem_append, hp.seen, List.mem_singleton, or_and_right,
        exists_or, exists_eq_left, eq_comm (a := command)]
    · simp only [Progress.count, List.find?_append, Option.isSome_or, hp.taken j hj, Bool.true_or]
    · rw [List.forall_mem_singleton]
      simp [Progress.count, List.find?_append, hname]

theorem knows_addIntents {p p' : Progress} {before intents : List IntentSpec} (hp : p.Knows before)
    (h : addIntents intents p = .ok p') : p'.Knows (before ++ intents) := by
  induction intents generalizing p before with
  | nil =>
    obtain rfl := Except.ok.inj h
    rwa [List.append_nil]
  | cons i rest ih =>
    obtain ⟨q, hq, hrest⟩ := addIntents_cons_ok.mp h
    rw [List.append_cons]
    exact ih (hp.step hq) hrest

/-! ### Progress without a duplicate -/

/-- The progress `q` may have done without the command `dup`, which `p` met. But for this they have
seen the same commands, and each name means the same command in both; their entities may differ. -/
structure Progress.Spares (dup : String) (q p : Progress) : Prop where
  seen : ∀ command, command ≠ dup → (command ∈ q.seen ↔ command ∈ p.seen)
  met : dup ∈ p.seen
  taken : (q.commands.find? (·.name = Text.snakeCase dup)).isSome
  commands : ∀ name, q.commands.find? (·.name = name) = p.commands.find? (·.name = name)

/-- A command after others of its name is not found. -/
theorem find?_append_taken {commands : List CommandSchema} {schema : CommandSchema}
    (h : (commands.find? (·.name = schema.name)).isSome) (name : String) :
    (commands ++ [schema]).find? (·.name = name) = commands.find? (·.name = name) := by
  rw [List.find?_append]
  by_cases hname : schema.name = name
  · obtain ⟨first, hfirst⟩ := Option.isSome_iff_exists.mp h
    rw [← hname, hfirst, Option.some_or]
  · simp [hname]

namespace Progress.Spares

variable {dup : String} {p p' q q' : Progress} {i : IntentSpec} {intents : List IntentSpec}

theorem count {c : CommandSchema × Option EntitySchema}
    (htaken : (q.commands.find? (·.name = Text.snakeCase dup)).isSome)
    (hname : c.1.name = Text.snakeCase dup) : Spares dup q (q.count dup c) where
  seen command hne := by simp [Progress.count, hne]
  met := by simp [Progress.count]
  taken := htaken
  commands name := (find?_append_taken (by rwa [hname]) name).symm

theorem step (h : Spares dup q p) (hq : addIntent q i = .ok q') (hp : addIntent p i = .ok p') :
    Spares dup q' p' := by
  by_cases hdup : i.command = dup
  · obtain ⟨-, rfl⟩ | ⟨hnew, -⟩ := addIntent_cases hp
    · obtain ⟨-, rfl⟩ | ⟨-, c, hc, rfl⟩ := addIntent_cases hq
      · exact h
      · have hname : c.1.name = Text.snakeCase dup := hdup ▸ (IntentSpec.contribution_cases hc).1
        have htaken : (q.commands.find? (·.name = c.1.name)).isSome := by
          rw [hname]
          exact h.taken
        have hfind := find?_append_taken htaken
        refine ⟨fun command hne => ?_, h.met, ?_, fun name => (hfind name).trans (h.commands name)⟩
        · rw [← h.seen command hne]
          simp [Progress.count, hdup, hne]
        · exact (congrArg Option.isSome (hfind _)).trans h.taken
    · exact absurd (hdup ▸ h.met) hnew
  · have hseen := h.seen i.command hdup
    obtain ⟨hmet, rfl⟩ | ⟨hnew, c, hc, rfl⟩ := addIntent_cases hp
    · obtain ⟨-, rfl⟩ | ⟨hnew, -⟩ := addIntent_cases hq
      · exact h
      · exact absurd (hseen.mpr hmet) hnew
    · obtain ⟨hmet, -⟩ | ⟨-, c', hc', rfl⟩ := addIntent_cases hq
      · exact absurd (hseen.mp hmet) hnew
      · obtain rfl := Except.ok.inj (hc'.symm.trans hc)
        refine ⟨fun command hne => ?_, List.mem_append_left _ h.met, ?_, fun name => ?_⟩
        · simp [Progress.count, h.seen command hne]
        · simp [Progress.count, List.find?_append, Option.isSome_or, h.taken]
        · simp only [Progress.count, List.find?_append, h.commands name]

/-- However the intents go on, each name means the same command in the end. -/
theorem run (h : Spares dup q p) (hq : addIntents intents q = .ok q')
    (hp : addIntents intents p = .ok p') : Spares dup q' p' := by
  induction intents generalizing q p with
  | nil =>
    obtain rfl := Except.ok.inj hq
    obtain rfl := Except.ok.inj hp
    exact h
  | cons i rest ih =>
    obtain ⟨q₁, hq₁, hq⟩ := addIntents_cons_ok.mp hq
    obtain ⟨p₁, hp₁, hp⟩ := addIntents_cons_ok.mp hp
    exact ih (h.step hq₁ hp₁) hq hp

/-- Where no intent has the command of the duplicate, they go on alike. -/
theorem run_of_ne (h : Spares dup q p) (hentities : q.entities = p.entities)
    (hne : ∀ i ∈ intents, i.command ≠ dup) (hp : addIntents intents p = .ok p') :
    ∃ q', addIntents intents q = .ok q' ∧ q'.entities = p'.entities := by
  induction intents generalizing q p with
  | nil =>
    obtain rfl := Except.ok.inj hp
    exact ⟨q, rfl, hentities⟩
  | cons i rest ih =>
    obtain ⟨hi, hrest⟩ := List.forall_mem_cons.mp hne
    obtain ⟨p₁, hp₁, hp⟩ := addIntents_cons_ok.mp hp
    have hseen := h.seen i.command hi
    obtain ⟨q₁, hq₁, hentities₁⟩ : ∃ q₁, addIntent q i = .ok q₁ ∧ q₁.entities = p₁.entities := by
      obtain ⟨hmet, rfl⟩ | ⟨hnew, c, hc, rfl⟩ := addIntent_cases hp₁
      · exact ⟨q, by rw [addIntent_eq, if_pos (hseen.mpr hmet)], hentities⟩
      · have hnew' : i.command ∉ q.seen := fun hmet => hnew (hseen.mp hmet)
        refine ⟨q.count i.command c, ?_, by simp only [Progress.count, hentities]⟩
        rw [addIntent_eq, if_neg hnew', hc]
        rfl
    obtain ⟨q', hq', hsame⟩ := ih (h.step hq₁ hp₁) hentities₁ hrest hp
    exact ⟨q', addIntents_cons_ok.mpr ⟨q₁, hq₁, hq'⟩, hsame⟩

end Progress.Spares

/-! ### Domains -/

/-- The commands and the entities of a domain file. -/
def progress (d : DomainSchema) : Except SchemaError Progress := do
  addIntents d.intents ⟨[], [], ← declaredEntities d.entities []⟩

/-- The entities of a domain file: the declared ones, then those that its intents store. -/
def entitySchemas (d : DomainSchema) : Except SchemaError (List EntitySchema) :=
  d.progress.map (·.entities)

/-- The commands that turns may call. -/
def Progress.registry (p : Progress) : Registry :=
  .ofSchemas (p.commands ++ p.entities.map CommandSchema.query)

theorem build_eq (d : DomainSchema) :
    d.build = d.progress >>= fun p =>
      let (added, context) := AppContext.addRecordCalls p.registry d.records .empty
      added.map fun _ => ⟨p.registry, context, p.entities, d.version⟩ := by
  simp only [build, progress, Progress.registry, bind_assoc]
  refine bind_congr fun entities => bind_congr fun p => ?_
  rcases AppContext.addRecordCalls (.ofSchemas _) d.records .empty with ⟨_ | _, _⟩ <;> rfl

theorem build_eq_ok {d : DomainSchema} {D : Domain} :
    d.build = .ok D ↔ ∃ p, d.progress = .ok p ∧ ∃ context,
      AppContext.addRecordCalls p.registry d.records .empty = (.ok (), context) ∧
        ⟨p.registry, context, p.entities, d.version⟩ = D := by
  rw [build_eq, bind_eq_ok]
  refine exists_congr fun p => and_congr_right fun _ => ?_
  rcases AppContext.addRecordCalls p.registry d.records .empty with ⟨e | ⟨⟩, context⟩
  · simp [Except.map]
  · simp [Except.map]

end DomainSchema

/-- Domains that offer the same commands and hold the same entities and records. -/
structure Domain.Alike (D E : Domain) : Prop where
  registry : D.registry = E.registry
  entities : D.entities = E.entities
  context : D.context = E.context

namespace DomainSchema

variable {d : DomainSchema} {D : Domain} {before after : List IntentSpec} {dup : IntentSpec}

theorem progress_append (d : DomainSchema) (first rest : List IntentSpec) :
    progress { d with intents := first ++ rest } =
      progress { d with intents := first } >>= addIntents rest := by
  unfold progress
  cases declaredEntities d.entities [] with
  | error e => rfl
  | ok entities => exact addIntents_append first rest _

theorem knows_progress {p : Progress} (h : d.progress = .ok p) : p.Knows d.intents := by
  obtain ⟨entities, -, hadd⟩ := bind_eq_ok.mp h
  have hnone : (⟨[], [], entities⟩ : Progress).Knows [] := ⟨by simp, by simp⟩
  exact knows_addIntents hnone hadd

/-- Whether an intent stores no entity, or one of a name that is among the entities of a domain. -/
def StoresNothingNew (d : DomainSchema) (i : IntentSpec) : Prop :=
  i.queryIntent = false → ∀ name, i.entityName = some name →
    ∃ entities, d.entitySchemas = .ok entities ∧ entities.any (·.name = name) = true

theorem StoresNothingNew.entities_count {q : Progress} {c : CommandSchema × Option EntitySchema}
    (h : d.StoresNothingNew dup) (hq : d.progress = .ok q) (hc : dup.contribution = .ok c) :
    (q.count dup.command c).entities = q.entities := by
  obtain ⟨schema, stored⟩ := c
  cases stored with
  | none => rfl
  | some entity =>
    obtain ⟨hquery, hname⟩ := (IntentSpec.contribution_cases hc).2 entity rfl
    obtain ⟨entities, hentities, hknown⟩ := h hquery _ hname
    obtain ⟨p, hp, rfl⟩ := map_eq_ok.mp hentities
    obtain rfl := Except.ok.inj (hp.symm.trans hq)
    exact if_pos hknown

/-- How the intents go on with a duplicate and without it. -/
theorem progress_duplicate (hintents : d.intents = before ++ dup :: after)
    (hdup : ∃ i ∈ before, Text.snakeCase i.command = Text.snakeCase dup.command) {p : Progress}
    (hp : d.progress = .ok p) :
    ∃ q, progress { d with intents := before } = .ok q ∧
      progress { d with intents := before ++ after } = addIntents after q ∧
      (((∃ i ∈ before, i.command = dup.command) ∧ addIntents after q = .ok p) ∨
        ((¬∃ i ∈ before, i.command = dup.command) ∧ ∃ c, dup.contribution = .ok c ∧
          addIntents after (q.count dup.command c) = .ok p ∧
          Progress.Spares dup.command q (q.count dup.command c))) := by
  have hd : d = { d with intents := before ++ dup :: after } := by rw [← hintents]
  rw [hd, progress_append] at hp
  obtain ⟨q, hq, hp⟩ := bind_eq_ok.mp hp
  obtain ⟨q₁, hq₁, hafter⟩ := addIntents_cons_ok.mp hp
  have hknows : q.Knows before := knows_progress hq
  refine ⟨q, hq, by rw [progress_append, hq]; rfl, ?_⟩
  obtain ⟨hseen, rfl⟩ | ⟨hnew, c, hc, rfl⟩ := addIntent_cases hq₁
  · exact .inl ⟨(hknows.seen _).mp hseen, hafter⟩
  · obtain ⟨i, hi, hsame⟩ := hdup
    have htaken := hknows.taken i hi
    rw [hsame] at htaken
    exact .inr ⟨fun hspelled => hnew ((hknows.seen _).mpr hspelled), c, hc, hafter,
      .count htaken (IntentSpec.contribution_cases hc).1⟩

/-- Without a duplicate the same entities make the same domain. -/
theorem alike_of_entities (hintents : d.intents = before ++ dup :: after)
    (hdup : ∃ i ∈ before, Text.snakeCase i.command = Text.snakeCase dup.command)
    (hbuild : d.build = .ok D)
    (hentities : entitySchemas { d with intents := before ++ after } = .ok D.entities) :
    ∃ E, build { d with intents := before ++ after } = .ok E ∧ E.Alike D := by
  obtain ⟨p, hp, context, hcontext, rfl⟩ := build_eq_ok.mp hbuild
  obtain ⟨p', hp', hsame⟩ := map_eq_ok.mp hentities
  have hcommands : ∀ name, p'.commands.find? (·.name = name) = p.commands.find? (·.name = name) := by
    obtain ⟨q, -, hrest, ⟨-, hrun⟩ | ⟨-, c, -, hrun, hspares⟩⟩ := progress_duplicate hintents hdup hp
    · obtain rfl := Except.ok.inj (hp'.symm.trans (hrest.trans hrun))
      exact fun _ => rfl
    · exact (hspares.run (hrest.symm.trans hp') hrun).commands
  have hregistry : p'.registry = p.registry := by
    refine Registry.ofSchemas_congr fun name => ?_
    rw [List.find?_append, List.find?_append, hcommands, hsame]
  rw [← hregistry] at hcontext
  exact ⟨_, build_eq_ok.mpr ⟨p', hp', context, hcontext, rfl⟩, hregistry, hsame, rfl⟩

/-- An intent whose command has the name of an earlier one can be left out when this changes no
entity, and only then. It changes none when an earlier intent writes the command in the same way. Nor
does it when no later intent does and the entity that the intent stores is there before it, if it
stores one. -/
theorem build_without_duplicate (hintents : d.intents = before ++ dup :: after)
    (hdup : ∃ i ∈ before, Text.snakeCase i.command = Text.snakeCase dup.command)
    (hbuild : d.build = .ok D) :
    let rest : DomainSchema := { d with intents := before ++ after }
    ((∃ E, rest.build = .ok E ∧ E.Alike D) ↔ rest.entitySchemas = .ok D.entities) ∧
      ((∃ i ∈ before, i.command = dup.command) → ∃ E, rest.build = .ok E ∧ E.Alike D) ∧
      ((∀ i ∈ after, i.command ≠ dup.command) →
        StoresNothingNew { d with intents := before } dup → ∃ E, rest.build = .ok E ∧ E.Alike D) := by
  intro rest
  have halike := alike_of_entities hintents hdup hbuild
  obtain ⟨p, hp, context, -, hD⟩ := build_eq_ok.mp hbuild
  have hentities : p.entities = D.entities := by rw [← hD]
  obtain ⟨q, hq, hrest, hcases⟩ := progress_duplicate hintents hdup hp
  have hskipped : addIntents after q = .ok p → rest.entitySchemas = .ok D.entities := fun hrun =>
    map_eq_ok.mpr ⟨p, hrest.trans hrun, hentities⟩
  refine ⟨⟨?_, halike⟩, fun hspelled => halike ?_, fun hafter hstores => halike ?_⟩
  · rintro ⟨E, hE, hsame⟩
    obtain ⟨p', hp', _, -, rfl⟩ := build_eq_ok.mp hE
    exact map_eq_ok.mpr ⟨p', hp', hsame.entities⟩
  · obtain ⟨-, hrun⟩ | ⟨hnew, -⟩ := hcases
    · exact hskipped hrun
    · exact absurd hspelled hnew
  · obtain ⟨-, hrun⟩ | ⟨-, c, hc, hrun, hspares⟩ := hcases
    · exact hskipped hrun
    · obtain ⟨p', hp', hsame⟩ := hspares.run_of_ne (hstores.entities_count hq hc).symm hafter hrun
      exact map_eq_ok.mpr ⟨p', hrest.trans hp', hsame.trans hentities⟩

/-- An alarm is described twice, and stored both times. -/
theorem build_without_duplicate_alarm :
    let intent : IntentSpec := ⟨"CreateAlarm", [], false, none, false, some "alarm", []⟩
    let d : DomainSchema := ⟨[intent, { intent with command := "create_alarm" }], [], []⟩
    ∃ D E, d.build = .ok D ∧ build { d with intents := [intent] } = .ok E ∧ E.Alike D := by
  intro intent d
  obtain ⟨D, hD⟩ : ∃ D, d.build = .ok D := by
    cases hbuild : d.build with
    | ok D => exact ⟨D, rfl⟩
    | error e =>
      have hok : d.build.isOk = true := by decide +kernel
      simp [hbuild, Except.isOk, Except.toBool] at hok
  have hdup : ∃ i ∈ [intent], Text.snakeCase i.command = Text.snakeCase "create_alarm" :=
    ⟨intent, List.mem_cons_self, by decide⟩
  have hstores : StoresNothingNew { d with intents := [intent] }
      { intent with command := "create_alarm" } := by
    rintro - _ ⟨⟩
    exact ⟨_, rfl, by decide⟩
  have hintents : d.intents = [intent] ++ { intent with command := "create_alarm" } :: [] := rfl
  obtain ⟨-, -, hleft⟩ := build_without_duplicate hintents hdup hD
  obtain ⟨E, hE, halike⟩ := hleft (List.forall_mem_nil _) hstores
  exact ⟨D, E, hD, hE, halike⟩

/-- An alarm that only the second description stores, under a command written in another way. -/
theorem build_respelled_duplicate :
    let intent : IntentSpec := ⟨"CreateAlarm", [], false, none, false, none, []⟩
    let dup : IntentSpec := ⟨"create_alarm", [], false, none, false, some "alarm", []⟩
    let d : DomainSchema := ⟨[intent, dup], [], []⟩
    Text.snakeCase intent.command = Text.snakeCase dup.command ∧
      ∃ D, d.build = .ok D ∧ ¬∃ E, build { d with intents := [intent] } = .ok E ∧ E.Alike D := by
  intro intent dup d
  have hentities : d.build.toOption.map (·.entities.map (·.name)) = some ["alarm"] := by decide +kernel
  have hwithout : (build { d with intents := [intent] }).toOption.map (·.entities.map (·.name)) =
      some [] := by
    decide +kernel
  cases hD : d.build with
  | error e => simp [hD, Except.toOption] at hentities
  | ok D =>
    refine ⟨by decide, D, rfl, ?_⟩
    rintro ⟨E, hE, halike⟩
    rw [hE, Except.toOption, Option.map_some, halike.entities] at hwithout
    rw [hD, Except.toOption, Option.map_some] at hentities
    exact absurd (hentities.symm.trans hwithout) (by simp)

end DomainSchema

end TaskDialogue
