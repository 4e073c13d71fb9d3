import TaskDialogue.Cli.Arguments
import TaskDialogue.Domain.Build
import TaskDialogue.Json.Writer
import TaskDialogue.Settings.Config
import TaskDialogue.Transcript.Conversation

/-!
# Tasks of the command line

A task prints a text and may fail, also after printing. How paths are looked up is
left to the caller.
-/
namespace TaskDialogue.Cli

inductive Failure where
  | configuration (error : ConfigError)
  | schemaUnread (path : String) (error : SchemaError)
  | schemaInvalid (path : String) (error : SchemaError)
  | transcriptUnread (path : String) (error : ReadError)
  | transcriptInvalid (path : String) (error : TranscriptError)
  | turnsFailed (failed total : Nat)
  | turnsUnparsed (failed total : Nat)

/-- The messages of an error of the domain: its own and the one of its cause. -/
def schemaChain (e : SchemaError) : List String :=
  match e with
  | .io _ cause => [e.message, cause]
  | .json fault => [e.message, fault.message]
  | _ => [e.message]

/-- The messages of a failure, each followed by the one of its cause. -/
def Failure.chain : Failure → List String
  | configuration error => ["Failed to load configuration", error.message]
  | schemaUnread path error => ("Failed to load domain schema " ++ path) :: schemaChain error
  | schemaInvalid path error => ("Invalid domain schema " ++ path) :: schemaChain error
  | transcriptUnread path error => ["Failed to read transcript " ++ path, error.message]
  | transcriptInvalid path error => ["Invalid transcript " ++ path, error.message]
  | turnsFailed failed total => [toString failed ++ " of " ++ toString total ++ " program turns failed"]
  | turnsUnparsed failed total =>
    [toString failed ++ " of " ++ toString total ++ " program turns failed to parse"]

/-- What a task printed, and why it failed. -/
structure Outcome where
  output : String
  failure : Option Failure

namespace Outcome

/-- The outcome of a task that failed before it printed anything. -/
def ofExcept : Except Failure Outcome → Outcome
  | .ok outcome => outcome
  | .error failure => ⟨"", some failure⟩

end Outcome

variable {m : Type → Type} [Monad m]

/-- The domain of a configuration, if it has one. -/
def readDomain (locate : Locate m) (c : Config) : ExceptT Failure m (Option Domain) := do
  match c.schemaPath with
  | none => return none
  | some path =>
    match ← locate.read path with
    | .error e => throw (.schemaUnread path (.io path e.message))
    | .ok text =>
      match DomainSchema.parse text with
      | .error e => throw (.schemaUnread path e)
      | .ok schema =>
        match schema.build with
        | .error e => throw (.schemaInvalid path e)
        | .ok domain => return some domain

def readTranscript (locate : Locate m) (c : Config) (path : String) :
    ExceptT Failure m Transcript := do
  match ← locate.read path with
  | .error e => throw (.transcriptUnread path e)
  | .ok text =>
    match Transcript.parse text c.executor.followMarker with
    | .error e => throw (.transcriptInvalid path e)
    | .ok t => return t

/-- The executor of a configuration, without a domain unless there is one. -/
def executor (c : Config) (registry : Registry) : Executor := ⟨registry, Sugar.defaults, c.executor⟩

/-- Execute a transcript and print the report. -/
def runTranscript (locate : Locate m) (c : Config) (path : String) (autoFollowUp : Bool) :
    ExceptT Failure m Outcome := do
  let t ← readTranscript locate c path
  let domain ← readDomain locate c
  let registry := (domain.map (·.registry)).getD (.ofSchemas [])
  let context := (domain.map (·.context)).getD .empty
  let start := Conversation.start (executor c registry) (.new context) autoFollowUp
  let report := (start.run t.turns).report
  let failed := (report.turns.filter TurnOutcome.failed).length
  return ⟨report.toJson.pretty ++ "\n",
    if 0 < failed then some (.turnsFailed failed report.turns.length) else none⟩

/-- A line on whether a program line can be read. Columns count bytes, from one. -/
def checkLine (x : Executor) (t : ProgramTurn) : String × Bool :=
  let turn := "turn " ++ toString t.index
  match x.prepare t.expression with
  | .ok _ => (turn ++ ": ok\n", true)
  | .error e =>
    let place := (e.span?.map fun s => " (column " ++ toString (s.start + 1) ++ ")").getD ""
    (turn ++ place ++ ": " ++ e.message ++ "\n", false)

/-- Check that all program lines of a transcript can be read. -/
def checkTranscript (locate : Locate m) (c : Config) (path : String) :
    ExceptT Failure m Outcome := do
  let t ← readTranscript locate c path
  let lines := t.programTurns.map (checkLine (executor c (.ofSchemas [])))
  let failed := (lines.filter (! ·.2)).length
  return ⟨String.join (lines.map (·.1)),
    if 0 < failed then some (.turnsUnparsed failed lines.length) else none⟩

def listCommands (locate : Locate m) (c : Config) : ExceptT Failure m Outcome := do
  let list (r : Registry) := String.join (r.signatures.map (· ++ "\n"))
  match ← readDomain locate c with
  | some domain => return ⟨"# domain " ++ domain.version ++ "\n" ++ list domain.registry, none⟩
  | none => return ⟨list (.ofSchemas []), none⟩

/-- Perform the task of an invocation in an environment. -/
def run (locate : Locate m) (env : Environment) (i : Invocation) : m Outcome := do
  match ← Config.load locate (some env) ⟨i.configPath, i.schemaPath, i.logLevel⟩ with
  | .error e => return ⟨"", some (.configuration e)⟩
  | .ok c =>
    let outcome : ExceptT Failure m Outcome :=
      match i.task with
      | .run path autoFollowUp => runTranscript locate c path autoFollowUp
      | .check path => checkTranscript locate c path
      | .commands => listCommands locate c
      | .config => return ⟨c.toToml, none⟩
    return .ofExcept (← outcome.run)

end TaskDialogue.Cli
