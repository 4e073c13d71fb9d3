import TaskDialogue.Exec.Executor
import TaskDialogue.Settings.Environment
import TaskDialogue.Settings.Source
import TaskDialogue.Settings.Toml.Quoted

/-!
# Configuration

What is not configured has a default. A file is laid over the defaults, the environment
over the file, and what the caller asks for comes last. Settings that are not known are
ignored.
-/
namespace TaskDialogue

structure Config where
  executor : ExecutorOptions
  /-- The path of the domain file. -/
  schemaPath : Option String
  /-- Which messages are logged. -/
  logLevel : String
deriving DecidableEq, Repr

inductive ConfigError where
  | fileNotFound (path : String)
  | unreadable
  | invalid
deriving DecidableEq, Repr

def ConfigError.message : ConfigError → String
  | fileNotFound path => "Config file not found: " ++ path
  | unreadable => "Failed to read configuration sources"
  | invalid => "Invalid configuration"

namespace Config

def defaults : Config := ⟨.defaults, none, "info"⟩

/-- The values of a section's entries, in the order of `names`. A section is a table, or
a list of its first entries in order. -/
def section? (names : List String) : Setting → Option (List (Option Setting))
  | .table es => some (names.map (Setting.lookup? · es))
  | .list items => some (names.mapIdx fun i _ => items[i]?)
  | _ => none

/-- A setting, or its default when it is not there. -/
def orDefault {α : Type} (read : Setting → Option α) (default : α) : Option Setting → Option α
  | none => some default
  | some s => read s

/-- The policy that a setting names, in letters of either case. A table names it by its
only key. -/
def policy? : Setting → Option MultiTargetPolicy
  | .text name => MultiTargetPolicy.ofName? (Setting.lowerName name)
  | .table [(name, _)] => MultiTargetPolicy.ofName? (Setting.lowerName name)
  | _ => none

def optionalText? : Setting → Option (Option String)
  | .nothing => some none
  | s => s.text?.map some

def executorOptions? (s : Setting) : Option ExecutorOptions := do
  let [policy, marker] ← section? ["multi_target_policy", "follow_marker"] s | none
  return {
    multiTargetPolicy := ← orDefault policy? .mostUpdated policy
    followMarker := ← orDefault Setting.text? defaultFollowMarker marker }

def schemaPath? (s : Setting) : Option (Option String) := do
  let [path] ← section? ["schema_path"] s | none
  orDefault optionalText? none path

def logLevel? (s : Setting) : Option String := do
  let [level] ← section? ["level"] s | none
  orDefault Setting.text? defaults.logLevel level

/-- The configuration that settings describe. -/
def ofSetting? (s : Setting) : Option Config := do
  let [executor, domain, log] ← section? ["executor", "domain", "log"] s | none
  return {
    executor := ← orDefault executorOptions? .defaults executor
    schemaPath := ← orDefault schemaPath? none domain
    logLevel := ← orDefault logLevel? defaults.logLevel log }

/-- The file of settings that is read when no other one is asked for. -/
def defaultFile : String := "turnscript.toml"

/-- The variable that names another file of settings. -/
def fileVariable : String := "TURNSCRIPT_CONFIG_PATH"

/-- The settings of the file that is asked for, or else of the default file, which may be
missing. Something must lie at a path that is asked for. -/
def sourceSettings {m : Type → Type} [Monad m] (locate : Locate m) (path : Option String) :
    m (Except ConfigError (List (String × Setting))) := do
  let read : Option (Format × String) → Except ConfigError (List (String × Setting))
    | some (format, text) =>
      match format.parse? text with
      | some settings => .ok settings
      | none => .error .unreadable
    | none => if path.isSome then .error .unreadable else .ok []
  match path with
  | none => return read (← Source.text locate defaultFile)
  | some path =>
    match ← locate path with
    | .ok _ | .error (.other _) => return read (← Source.text locate path)
    | .error _ => return .error (.fileNotFound path)

/-- What the caller asks for. -/
structure Overrides where
  configPath : Option String
  schemaPath : Option String
  logLevel : Option String

/-- The environment together with the variables of the file `.env`, if there is one. -/
def fullEnvironment {m : Type → Type} [Monad m] (locate : Locate m) (env : Environment) :
    m Environment :=
  return match ← locate.read ".env" with
    | .ok text => EnvFile.load text env
    | .error _ => env

/-- The configuration from settings of all sources. -/
def ofSources (file env : List (String × Setting)) (o : Overrides) : Except ConfigError Config :=
  match ofSetting? (Setting.layerKeys env (Setting.layerKeys file (.table []))) with
  | none => .error .invalid
  | some c =>
    .ok { c with
      schemaPath := o.schemaPath.or c.schemaPath
      logLevel := o.logLevel.getD c.logLevel }

/-- Load the configuration. Without an environment no variable is looked at, nor is
`.env`. -/
def load {m : Type → Type} [Monad m] (locate : Locate m) (env : Option Environment)
    (o : Overrides) : m (Except ConfigError Config) := do
  let env : Environment ← match env with
    | none => pure []
    | some env => fullEnvironment locate env
  match ← sourceSettings locate (o.configPath.or (env.find? fileVariable)) with
  | .error e => return .error e
  | .ok file => return ofSources file env.settings o

/-- The configuration as a file would hold it. -/
def toToml (c : Config) : String :=
  let entry (name value : String) := name ++ " = " ++ Toml.quoted value ++ "\n"
  "[executor]\n" ++ entry "multi_target_policy" c.executor.multiTargetPolicy.display ++
    entry "follow_marker" c.executor.followMarker ++ "\n[domain]\n" ++
    (c.schemaPath.map (entry "schema_path")).getD "" ++ "\n[log]\n" ++ entry "level" c.logLevel

def toJson (c : Config) : Json :=
  .object
    [("executor", .object
       [("multi_target_policy", .string c.executor.multiTargetPolicy.display),
        ("follow_marker", .string c.executor.followMarker)]),
     ("domain", Json.objectOf [("schema_path", c.schemaPath.map .string)]),
     ("log", .object [("level", .string c.logLevel)])]

end Config

end TaskDialogue
