import TaskDialogue.Text.Sha256
import TaskDialogue.Domain.Record

/-!
# Building a domain

A domain file lists intents, entities and records. It builds into the commands that
turns may call and the records that queries find. Its version is the digest of its
canonical text.
-/
namespace TaskDialogue

open Json (Shape Fields)

/-- What a domain file holds. -/
structure DomainSchema where
  intents : List IntentSpec
  entities : List EntitySpec
  /-- The records to start with, as query calls. -/
  records : List String

/-- What a conversation needs of its domain. -/
structure Domain where
  registry : Registry
  context : AppContext
  entities : List EntitySchema
  version : String

namespace DomainSchema

def shape : Shape :=
  .record "DomainSchema" <|
    .cons "intents" false (.list IntentSpec.shape) <|
    .cons "entities" false (.list EntitySpec.shape) <|
    .cons "records" false (.list .text) .nil

def ofCarrier : shape.Carrier → DomainSchema := fun (intents, entities, records, _) =>
  ⟨intents.map IntentSpec.ofCarrier, entities.map EntitySpec.ofCarrier, records⟩

def parse (text : String) : Except SchemaError DomainSchema :=
  match shape.parse text with
  | .ok value => .ok (ofCarrier value)
  | .error fault => .error (.json fault)

def toJson (d : DomainSchema) : Json :=
  .object [("intents", .array (d.intents.map IntentSpec.toJson)),
    ("entities", .array (d.entities.map EntitySpec.toJson)), ("records", Json.ofStrings d.records)]

/-- The text that the version is taken from: compact, with the fields in the order of
declaration. -/
def canonical (d : DomainSchema) : String := d.toJson.compact

def version (d : DomainSchema) : String := Text.Sha256.hexDigest d.canonical

/-- Add an entity, unless its name is known. -/
def addEntity (entities : List EntitySchema) (entity : EntitySchema) : List EntitySchema :=
  if entities.any (·.name = entity.name) then entities else entities ++ [entity]

/-- The declared entities, each name once. -/
def declaredEntities : List EntitySpec → List EntitySchema → Except SchemaError (List EntitySchema)
  | [], entities => .ok entities
  | spec :: rest, entities =>
    match spec.toSchema with
    | .ok entity => declaredEntities rest (addEntity entities entity)
    | .error e => .error e

/-- The commands of the intents so far, with the names that were seen and the
entities. -/
structure Progress where
  seen : List String
  commands : List CommandSchema
  entities : List EntitySchema

/-- Add an intent. A command that was seen before adds nothing. A query intent is a
query over its entity; any other intent with an entity stores that entity. -/
def addIntent (p : Progress) (intent : IntentSpec) : Except SchemaError Progress :=
  if p.seen.contains intent.command then .ok p
  else do
    let schema ← intent.toSchema
    let seen := p.seen ++ [intent.command]
    match intent.queryIntent, intent.entityName with
    | true, none => .error (.missingEntityName intent.command)
    | true, some entity => .ok ⟨seen, p.commands ++ [{ schema with kind := .query entity }], p.entities⟩
    | false, none => .ok ⟨seen, p.commands ++ [schema], p.entities⟩
    | false, some _ =>
      let entity ← intent.toEntity
      .ok ⟨seen, p.commands ++ [schema], addEntity p.entities entity⟩

def addIntents : List IntentSpec → Progress → Except SchemaError Progress
  | [], p => .ok p
  | intent :: rest, p =>
    match addIntent p intent with
    | .ok p => addIntents rest p
    | .error e => .error e

/-- Build the domain. Every entity has a query; a declared command of the same name
comes first. -/
def build (d : DomainSchema) : Except SchemaError Domain := do
  let entities ← declaredEntities d.entities []
  let p ← addIntents d.intents ⟨[], [], entities⟩
  let registry := Registry.ofSchemas (p.commands ++ p.entities.map CommandSchema.query)
  let (added, context) := AppContext.addRecordCalls registry d.records .empty
  added
  return ⟨registry, context, p.entities, d.version⟩

end DomainSchema

end TaskDialogue
