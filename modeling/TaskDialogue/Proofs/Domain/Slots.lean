import TaskDialogue.Proofs.Domain.Queries
import TaskDialogue.Proofs.Domain.Reading
import TaskDialogue.Proofs.Task.Asks

/-!
# The slots of domain commands

A slot is addressed by its name, and a name means the first slot that has it. The arguments of an intent
and the attributes of a declared entity have different names, since they are read from tables. What is
derived from them adds names of its own: queries start with the slot that selects, and an entity that an
intent stores has a date. So a slot of a query may be hidden. And the name of the confirmation never
means a slot.
-/
namespace TaskDialogue

/-! ### Slots under their names -/

/-- Among different names none comes before itself. -/
theorem getElem?_ne_of_nodup {names : List String} {i j : Nat} {name : String} (hnames : names.Nodup)
    (hj : names[j]? = some name) (hi : i < j) : names[i]? ≠ some name := by
  intro hsame
  have hlt := (List.getElem?_eq_some_iff.mp hsame).1
  exact absurd ((List.getElem?_inj hlt hnames).mp (hsame.trans hj.symm)) (Nat.ne_of_lt hi)

namespace CommandSchema

variable {schema : CommandSchema} {k : Nat} {slot : SlotSchema}

/-- A slot without an earlier one of its name is found by its name. -/
theorem position?_of_first (hslot : schema.slots[k]? = some slot)
    (hfirst : ∀ i < k, (schema.slots.map (·.name))[i]? ≠ some slot.name) :
    schema.position? slot.name = some k := by
  obtain ⟨hlt, hget⟩ := List.getElem?_eq_some_iff.mp hslot
  refine List.findIdx?_eq_some_iff_getElem.mpr ⟨hlt, by simp [hget], fun i hi => ?_⟩
  have hother := hfirst i hi
  rw [List.getElem?_map, List.getElem?_eq_getElem (Nat.lt_trans hi hlt)] at hother
  simpa using hother

/-- Of slots with different names each is found by its name. -/
theorem position?_of_nodup (hnames : (schema.slots.map (·.name)).Nodup)
    (hslot : schema.slots[k]? = some slot) : schema.position? slot.name = some k := by
  have hk : (schema.slots.map (·.name))[k]? = some slot.name := by
    rw [List.getElem?_map, hslot]
    rfl
  exact position?_of_first hslot fun i hi => getElem?_ne_of_nodup hnames hk hi

end CommandSchema

/-- The slot at a place is addressed by its name: whatever value it accepts goes to this place of a new
command, and is read from it. -/
def CommandSchema.Addressable (schema : CommandSchema) (k : Nat) (slot : SlotSchema) : Prop :=
  ∀ v, slot.type.accepts v = true →
    let c := Command.ofSchema schema
    ∃ c', c.set slot.name v = .ok c' ∧ c' = { c with values := c.values.set k v } ∧
      c'.get slot.name = .ok v

theorem CommandSchema.addressable_of_position? {schema : CommandSchema} {k : Nat} {slot : SlotSchema}
    (hname : slot.name ≠ confirmedAttr) (hslot : schema.slots[k]? = some slot)
    (hposition : schema.position? slot.name = some k) : schema.Addressable k slot := by
  intro v hv
  obtain ⟨hlt, -⟩ := List.getElem?_eq_some_iff.mp hslot
  refine ⟨_, Command.set_slot hname hposition hslot hv, rfl, ?_⟩
  simp [Command.get, hname, Command.slotPosition, Command.ofSchema, hposition, hlt, bind, Except.bind,
    pure, Except.pure, List.getD_eq_getElem?_getD]

/-! ### Intents -/

namespace IntentSpec

variable {i : IntentSpec} {schema : CommandSchema} {stored : Option EntitySchema}

theorem map_fst_argSpecs {args : List (String × ArgSpec)} (h : i.argSpecs = .ok args) :
    args.map (·.1) = i.args.map (·.1) := by
  refine map_of_mapM (fun arg read hread => ?_) h
  obtain ⟨name, raw⟩ := arg
  dsimp only at hread
  split at hread
  · rw [← Except.ok.inj hread]
  · simp at hread

theorem slots_toSchema (h : i.toSchema = .ok schema) :
    schema.slots.map (·.name) = i.args.map (·.1) ∧
      ∀ name ∈ schema.positional, name ∈ schema.slots.map (·.name) := by
  obtain ⟨args, hargs, h⟩ := bind_eq_ok.mp h
  dsimp only at h
  split at h
  · simp at h
  · next hnone =>
    obtain rfl := Except.ok.inj h
    refine ⟨by rw [← map_fst_argSpecs hargs]; simp [slot], fun name hname => ?_⟩
    have hdeclared := List.find?_eq_none.mp hnone name hname
    simpa using hdeclared

/-- The command of an intent has the arguments as slots, and its positional names are among them. -/
theorem slots_contribution (h : i.contribution = .ok (schema, stored)) :
    schema.slots.map (·.name) = i.args.map (·.1) ∧
      ∀ name ∈ schema.positional, name ∈ schema.slots.map (·.name) := by
  obtain ⟨made, hmade, hcases⟩ := contribution_inv h
  have hslots := slots_toSchema hmade
  obtain ⟨entity, -, -, rfl, -⟩ | ⟨-, rfl, -⟩ := hcases
  · exact hslots
  · exact hslots

theorem toEntity_of_contribution {entity : EntitySchema}
    (h : i.contribution = .ok (schema, some entity)) : i.toEntity = .ok entity := by
  obtain ⟨made, -, ⟨_, -, -, -, hnone⟩ | ⟨-, -, hnone | ⟨stored, hstored, hsame⟩⟩⟩ := contribution_inv h
  · nomatch hnone
  · nomatch hnone
  · rw [hstored, Option.some.inj hsame]

theorem attributes_toEntity {entity : EntitySchema} (h : i.toEntity = .ok entity) :
    entity.attributes.map (·.1) = i.args.map (·.1) ++ ["date_of_" ++ entity.name] := by
  unfold toEntity at h
  split at h
  · simp at h
  · obtain ⟨args, hargs, h⟩ := bind_eq_ok.mp h
    rw [← map_fst_argSpecs hargs, ← Except.ok.inj h]
    simp

end IntentSpec

/-! ### Entities -/

theorem EntitySpec.attributes_toSchema {spec : EntitySpec} {entity : EntitySchema}
    (h : spec.toSchema = .ok entity) : entity.attributes.map (·.1) = spec.attributes.map (·.1) := by
  obtain ⟨attributes, hattributes, h⟩ := bind_eq_ok.mp h
  rw [← Except.ok.inj h]
  refine map_of_mapM (fun field read hread => ?_) hattributes
  obtain ⟨name, raw⟩ := field
  dsimp only at hread
  split at hread
  · rw [← Except.ok.inj hread]
  · simp at hread

namespace DomainSchema

variable {d : DomainSchema} {D : Domain} {text : String} {schema : CommandSchema} {k : Nat}
  {slot : SlotSchema}

theorem mem_declaredEntities {specs : List EntitySpec} {before entities : List EntitySchema}
    {e : EntitySchema} (h : declaredEntities specs before = .ok entities) (he : e ∈ entities) :
    e ∈ before ∨ ∃ spec ∈ specs, spec.toSchema = .ok e := by
  induction specs generalizing before with
  | nil =>
    obtain rfl := Except.ok.inj h
    exact .inl he
  | cons spec specs ih =>
    rw [declaredEntities] at h
    split at h
    · next entity hentity =>
      obtain hknown | ⟨other, hother, hsame⟩ := ih h
      · obtain hknown | rfl := mem_addEntity hknown
        · exact .inl hknown
        · exact .inr ⟨spec, List.mem_cons_self, hentity⟩
      · exact .inr ⟨other, List.mem_cons_of_mem _ hother, hsame⟩
    · simp at h

/-- An entity has different attributes, or it is stored by an intent: then its attributes are the
arguments of the intent, and the date behind them. -/
theorem attributes_of_mem {p : Progress} (hkeys : d.KeysOnce) (hp : d.progress = .ok p)
    {e : EntitySchema} (he : e ∈ p.entities) :
    (e.attributes.map (·.1)).Nodup ∨ ∃ i ∈ d.intents, i.toEntity = .ok e ∧ (i.args.map (·.1)).Nodup := by
  obtain ⟨declared, hdeclared, hmade⟩ := made_progress hp
  obtain he | ⟨i, hi, schema, hc⟩ := hmade.entities e he
  · obtain hnone | ⟨spec, hspec, hschema⟩ := mem_declaredEntities hdeclared he
    · exact absurd hnone List.not_mem_nil
    · rw [EntitySpec.attributes_toSchema hschema]
      exact .inl (hkeys.attributes spec hspec)
  · exact .inr ⟨i, hi, IntentSpec.toEntity_of_contribution hc, hkeys.args i hi⟩

/-! ### Queries -/

/-- A slot of a query that an earlier one hides: an attribute with the name of the slot that selects,
or the date of an entity when the intent that stores it has an argument of this name. -/
def Hidden (d : DomainSchema) (schema : CommandSchema) (k : Nat) (slot : SlotSchema) : Prop :=
  ∃ e : EntitySchema, schema = .query e ∧
    ((k ≠ 0 ∧ slot.name = CommandSchema.selectSlot) ∨
      (k = e.attributes.length ∧ slot.name = "date_of_" ++ e.name ∧
        ∃ i ∈ d.intents, i.toEntity = .ok e ∧ slot.name ∈ i.args.map (·.1)))

theorem names_query (e : EntitySchema) :
    (CommandSchema.query e).slots.map (·.name) = CommandSchema.selectSlot :: e.attributes.map (·.1) := by
  simp [CommandSchema.query, SlotSchema.optional]

/-- An attribute is the first of its name, unless it is a date that an argument hides. -/
theorem first_attribute {p : Progress} (hkeys : d.KeysOnce) (hp : d.progress = .ok p) {e : EntitySchema}
    (he : e ∈ p.entities) {i j : Nat} {name : String} (hj : (e.attributes.map (·.1))[j]? = some name)
    (hshown : ¬(j + 1 = e.attributes.length ∧ name = "date_of_" ++ e.name ∧
      ∃ i ∈ d.intents, i.toEntity = .ok e ∧ name ∈ i.args.map (·.1))) (hi : i < j) :
    (e.attributes.map (·.1))[i]? ≠ some name := by
  obtain hnames | ⟨intent, hintent, hentity, hargs⟩ := attributes_of_mem hkeys hp he
  · exact getElem?_ne_of_nodup hnames hj hi
  · have hnames := IntentSpec.attributes_toEntity hentity
    have hlength : e.attributes.length = (intent.args.map (·.1)).length + 1 := by
      simpa using congrArg List.length hnames
    rw [hnames] at hj ⊢
    by_cases hlast : j < (intent.args.map (·.1)).length
    · rw [List.getElem?_append_left hlast] at hj
      rw [List.getElem?_append_left (Nat.lt_trans hi hlast)]
      exact getElem?_ne_of_nodup hargs hj hi
    · have hj' := (List.getElem?_eq_some_iff.mp hj).1
      rw [List.length_append, List.length_singleton] at hj'
      obtain rfl : j = (intent.args.map (·.1)).length := by omega
      rw [List.getElem?_concat_length, Option.some.injEq] at hj
      rw [List.getElem?_append_left hi]
      exact fun hsame =>
        hshown ⟨hlength.symm, hj.symm, intent, hintent, hentity, List.mem_of_getElem? hsame⟩

theorem position?_query {p : Progress} (hkeys : d.KeysOnce) (hp : d.progress = .ok p) {e : EntitySchema}
    (he : e ∈ p.entities) (hslot : (CommandSchema.query e).slots[k]? = some slot)
    (hshown : ¬d.Hidden (.query e) k slot) : (CommandSchema.query e).position? slot.name = some k := by
  refine CommandSchema.position?_of_first hslot fun i hi => ?_
  have hname : ((CommandSchema.query e).slots.map (·.name))[k]? = some slot.name := by
    rw [List.getElem?_map, hslot]
    rfl
  rw [names_query] at hname ⊢
  cases k with
  | zero => exact absurd hi (Nat.not_lt_zero i)
  | succ j =>
    cases i with
    | zero =>
      rw [List.getElem?_cons_zero]
      exact fun hselect => hshown ⟨e, rfl, .inl ⟨Nat.succ_ne_zero j, (Option.some.inj hselect).symm⟩⟩
    | succ i =>
      rw [List.getElem?_cons_succ] at hname ⊢
      exact first_attribute hkeys hp he hname (fun h => hshown ⟨e, rfl, .inr h⟩) (Nat.lt_of_succ_lt_succ hi)

/-! ### All commands -/

/-- The slots of an auxiliary command have different names, and all of them are positional. -/
theorem slots_auxiliary : ∀ schema ∈ Registry.auxiliary,
    (schema.slots.map (·.name)).Nodup ∧ schema.positional = schema.slots.map (·.name) := by decide

/-- The commands of a domain are the auxiliary ones, those of its intents and the queries over its
entities. -/
theorem schemas_cases {p : Progress} (hp : d.progress = .ok p) (h : schema ∈ p.registry.schemas) :
    schema ∈ Registry.auxiliary ∨ (∃ i ∈ d.intents, ∃ stored, i.contribution = .ok (schema, stored)) ∨
      ∃ e ∈ p.entities, schema = .query e := by
  obtain ⟨declared, -, hmade⟩ := made_progress hp
  obtain hauxiliary | hdomain := List.mem_append.mp (Registry.mem_ofSchemas h)
  · exact .inl hauxiliary
  · obtain hcommand | hquery := List.mem_append.mp hdomain
    · exact .inr (.inl (hmade.commands schema hcommand))
    · obtain ⟨e, he, rfl⟩ := List.mem_map.mp hquery
      exact .inr (.inr ⟨e, he, rfl⟩)

/-- A domain that is read and built has some command with these slots. -/
def Offers (text : String) (slots : List (String × SlotType)) : Bool :=
  ((parse text).toOption.bind fun d => d.build.toOption).any fun D =>
    D.registry.schemas.any fun schema => schema.slots.map (fun slot => (slot.name, slot.type)) = slots

theorem exists_of_offers {slots : List (String × SlotType)} (h : Offers text slots = true) :
    ∃ d D, parse text = .ok d ∧ d.build = .ok D ∧ ∃ schema ∈ D.registry.schemas,
      schema.slots.map (fun slot => (slot.name, slot.type)) = slots := by
  unfold Offers at h
  cases hparse : parse text with
  | error e => simp [hparse, Except.toOption] at h
  | ok d =>
    cases hbuild : d.build with
    | error e => simp [hparse, hbuild, Except.toOption] at h
    | ok D =>
      simp only [hparse, hbuild, Except.toOption, Option.bind_some, Option.any_some, List.any_eq_true,
        decide_eq_true_eq] at h
      exact ⟨d, D, rfl, hbuild, h⟩

/-- Every slot of a command is addressed by its name, unless it has the name of the confirmation or is a
slot of a query that an earlier one hides. Under the name of the confirmation the confirmation is
written. The positional names of a command are names of its slots. -/
theorem slots_addressable (hparse : parse text = .ok d) (hbuild : d.build = .ok D)
    (hschema : schema ∈ D.registry.schemas) :
    (∀ name ∈ schema.positional, name ∈ schema.slots.map (·.name)) ∧
      (∀ k slot, schema.slots[k]? = some slot → slot.name ≠ confirmedAttr → ¬d.Hidden schema k slot →
        schema.Addressable k slot) ∧
      ∀ b, (Command.ofSchema schema).set confirmedAttr (.bool b) =
        .ok { Command.ofSchema schema with confirmed := b } := by
  obtain ⟨p, hp, context, -, rfl⟩ := build_eq_ok.mp hbuild
  have hkeys := keysOnce_of_parse hparse
  refine and_assoc.mp ⟨?_, fun b => Command.set_confirmed _ b⟩
  obtain hauxiliary | ⟨i, hi, stored, hc⟩ | ⟨e, he, rfl⟩ := schemas_cases hp hschema
  · obtain ⟨hnames, hpositional⟩ := slots_auxiliary schema hauxiliary
    refine ⟨fun name hname => hpositional ▸ hname, fun k slot hslot hname _ => ?_⟩
    exact CommandSchema.addressable_of_position? hname hslot (CommandSchema.position?_of_nodup hnames hslot)
  · obtain ⟨hnames, hpositional⟩ := IntentSpec.slots_contribution hc
    refine ⟨hpositional, fun k slot hslot hname _ => ?_⟩
    have hnodup : (schema.slots.map (·.name)).Nodup := hnames ▸ hkeys.args i hi
    exact CommandSchema.addressable_of_position? hname hslot (CommandSchema.position?_of_nodup hnodup hslot)
  · refine ⟨nofun, fun k slot hslot hname hshown => ?_⟩
    exact CommandSchema.addressable_of_position? hname hslot (position?_query hkeys hp he hslot hshown)

/-- The time of an alarm is written and read under its name. -/
theorem slots_addressable_alarm :
    let text := "\x7b\"intents\": [\x7b\"command\": \"CreateAlarm\", " ++
      "\"args\": \x7b\"time\": \x7b\"type\": \"str\"\x7d\x7d\x7d]\x7d"
    ∃ d D, parse text = .ok d ∧ d.build = .ok D ∧ ∃ schema ∈ D.registry.schemas,
      ∃ c', (Command.ofSchema schema).set "time" (.str "8:30") = .ok c' ∧
        c'.get "time" = .ok (.str "8:30") := by
  intro text
  have hoffers : Offers text [("time", .str)] = true := by decide +kernel
  obtain ⟨d, D, hparse, hbuild, schema, hschema, hslots⟩ := exists_of_offers hoffers
  obtain ⟨slot, hslot, htime⟩ := List.map_eq_singleton_iff.mp hslots
  obtain ⟨hname, htype⟩ := Prod.mk.inj htime
  have hshown : ¬d.Hidden schema 0 slot := by
    rintro ⟨e, rfl, ⟨hk, -⟩ | ⟨-, hdate, -⟩⟩
    · exact hk rfl
    · rw [hname] at hdate
      have hfirst := congrArg (·.toList.head?) hdate
      simp at hfirst
  have haddressable := (slots_addressable hparse hbuild hschema).2.1 0 slot (by rw [hslot]; rfl)
    (by rw [hname]; decide) hshown
  obtain ⟨c', hset, -, hget⟩ := haddressable (.str "8:30") (by rw [htype]; rfl)
  rw [hname] at hset hget
  exact ⟨d, D, hparse, hbuild, schema, hschema, c', hset, hget⟩

/-- An argument with the name of the confirmation is not written under its name. -/
theorem slot_of_confirmation :
    let text := "\x7b\"intents\": [\x7b\"command\": \"Ask\", " ++
      "\"args\": \x7b\"confirmed\": \x7b\"type\": \"str\"\x7d\x7d\x7d]\x7d"
    ¬∀ d D, parse text = .ok d → d.build = .ok D → ∀ schema ∈ D.registry.schemas, ∀ k slot,
      schema.slots[k]? = some slot → schema.Addressable k slot := by
  intro text hall
  have hoffers : Offers text [("confirmed", .str)] = true := by decide +kernel
  obtain ⟨d, D, hparse, hbuild, schema, hschema, hslots⟩ := exists_of_offers hoffers
  obtain ⟨slot, hslot, hconfirmed⟩ := List.map_eq_singleton_iff.mp hslots
  obtain ⟨hname, htype⟩ := Prod.mk.inj hconfirmed
  obtain ⟨c', hset, -⟩ := hall d D hparse hbuild schema hschema 0 slot (by rw [hslot]; rfl) (.str "yes")
    (by rw [htype]; rfl)
  rw [hname] at hset
  simp [Command.set, confirmedAttr] at hset

end DomainSchema

end TaskDialogue
