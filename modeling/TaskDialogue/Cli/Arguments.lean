/-!
# Command-line arguments

```
[--config PATH] [--log-level FILTER] run TRANSCRIPT [--schema PATH] [--auto-followup]
                                     check TRANSCRIPT
                                     commands [--schema PATH]
                                     config
```

The options before the first word may also stand after it, and then win. An option takes
its value from the same argument after an equals sign, or from the next one. What is read
is only looked at when the next option or word comes, so an argument that nothing expects
is reported before a fault of the one before it.
-/
namespace TaskDialogue.Cli

/-- What an option sets. -/
inductive Setter where
  | config
  | logLevel
  | schema
  | autoFollowUp
  | help
deriving DecidableEq, Repr

namespace Setter

def long : Setter → String
  | config => "config"
  | logLevel => "log-level"
  | schema => "schema"
  | autoFollowUp => "auto-followup"
  | help => "help"

def short? : Setter → Option Char
  | schema => some 's'
  | help => some 'h'
  | _ => none

def takesValue : Setter → Bool
  | config | logLevel | schema => true
  | autoFollowUp | help => false

def admitsEmpty : Setter → Bool
  | schema => false
  | _ => true

end Setter

inductive Verb where
  | run
  | check
  | commands
  | config
  | help
deriving DecidableEq, Repr

namespace Verb

def all : List Verb := [run, check, commands, config, help]

def word : Verb → String
  | run => "run"
  | check => "check"
  | commands => "commands"
  | config => "config"
  | help => "help"

def ofWord? (w : String) : Option Verb := all.find? (·.word = w)

end Verb

/-- What may stand in a stretch of arguments. -/
structure Stretch where
  options : List Setter
  /-- Whether a transcript may be named. -/
  transcript : Bool
  /-- Whether a verb may end the stretch. -/
  verb : Bool

namespace Stretch

def first : Stretch := ⟨[.config, .logLevel, .help], false, true⟩

def after : Verb → Stretch
  | .run => ⟨[.config, .logLevel, .schema, .autoFollowUp, .help], true, false⟩
  | .check => ⟨[.config, .logLevel, .help], true, false⟩
  | .commands => ⟨[.config, .logLevel, .schema, .help], false, false⟩
  | .config | .help => ⟨[.config, .logLevel, .help], false, false⟩

end Stretch

/-- Why arguments are not acted on. -/
inductive UsageFault where
  | helpAsked
  | nothingAsked
  | missingVerb
  | unknownVerb (word : String)
  | missingTranscript
  | unexpected (argument : String)
  | missingValue (name : String)
  | needlessValue (name : String)
  | givenTwice (name : String)
deriving DecidableEq, Repr

def UsageFault.message : UsageFault → String
  | helpAsked | nothingAsked =>
    "usage: [--config PATH] [--log-level FILTER] (run TRANSCRIPT [--schema PATH] " ++
      "[--auto-followup] | check TRANSCRIPT | commands [--schema PATH] | config)"
  | missingVerb => "no subcommand given"
  | unknownVerb word => "unrecognized subcommand '" ++ word ++ "'"
  | missingTranscript => "no transcript given"
  | unexpected argument => "unexpected argument '" ++ argument ++ "'"
  | missingValue name => "a value is required for '" ++ name ++ "'"
  | needlessValue name => "unexpected value for '" ++ name ++ "'"
  | givenTwice name => "'" ++ name ++ "' cannot be used multiple times"

/-- An argument that was read and not yet looked at. -/
inductive Pending where
  | option (setter : Setter) (value : Option String)
  | transcript (path : String)
deriving DecidableEq, Repr

structure Progress where
  given : List (Setter × String)
  transcript : Option String
  pending : Option Pending
  /-- Whether only transcripts may follow. -/
  trailing : Bool

namespace Progress

def start : Progress := ⟨[], none, none, false⟩

def find? (p : Progress) (setter : Setter) : Option String :=
  (p.given.find? (·.1 = setter)).map (·.2)

/-- Whether the next argument is the value of an option. -/
def awaitsValue (p : Progress) : Bool :=
  match p.pending with
  | some (.option _ none) => true
  | _ => false

def hasTranscript (p : Progress) : Bool :=
  p.transcript.isSome || match p.pending with
    | some (.transcript _) => true
    | _ => false

def record (p : Progress) (setter : Setter) (value : String) : Except UsageFault Progress :=
  if (p.find? setter).isSome then .error (.givenTwice setter.long)
  else if value = "" && !setter.admitsEmpty then .error (.missingValue setter.long)
  else .ok { p with given := p.given ++ [(setter, value)] }

/-- Look at the argument that was read before. -/
def settle (p : Progress) : Except UsageFault Progress :=
  let q := { p with pending := none }
  match p.pending with
  | none => .ok p
  | some (.option setter none) => .error (.missingValue setter.long)
  | some (.option setter (some value)) => q.record setter value
  | some (.transcript path) =>
    if path = "" then .error (.missingValue "transcript") else .ok { q with transcript := some path }

/-- An option by itself. Help ends the reading. -/
def switch (p : Progress) (setter : Setter) : Except UsageFault Progress := do
  let p ← p.settle
  if setter = .help then .error .helpAsked else p.record setter ""

/-- An option whose value may stand beside it. -/
def valued (p : Progress) (setter : Setter) (value : Option String) : Except UsageFault Progress := do
  let p ← p.settle
  match value with
  | some value => p.record setter value
  | none => .ok { p with pending := some (.option setter none) }

/-- An argument after two dashes. -/
def long (s : Stretch) (p : Progress) (body : List Char) : Except UsageFault Progress :=
  let (name, rest) := body.span (· ≠ '=')
  let value := match rest with
    | _ :: value => some (String.ofList value)
    | [] => none
  match s.options.find? (·.long = String.ofList name) with
  | none => .error (.unexpected (String.ofList ('-' :: '-' :: name)))
  | some setter =>
    if setter.takesValue then p.valued setter value
    else if value.isSome then .error (.needlessValue setter.long)
    else p.switch setter

/-- Letters after a single dash. The rest after an option with a value is that value. -/
def short (s : Stretch) (p : Progress) : List Char → Except UsageFault Progress
  | [] => .ok p
  | c :: rest =>
    match s.options.find? (·.short? = some c) with
    | none => .error (.unexpected (String.ofList ['-', c]))
    | some setter =>
      if setter.takesValue then
        p.valued setter <| match rest with
          | [] => none
          | '=' :: value => some (String.ofList value)
          | value => some (String.ofList value)
      else do short s (← p.switch setter) rest

def word (s : Stretch) (p : Progress) (a : String) : Except UsageFault Progress :=
  if s.transcript && !p.hasTranscript then do
    let p ← p.settle
    .ok { p with pending := some (.transcript a) }
  else if s.verb && !(p.trailing && (Verb.ofWord? a).isSome) then .error (.unknownVerb a)
  else .error (.unexpected a)

/-- An argument that is no verb. -/
def take (s : Stretch) (p : Progress) (a : String) : Except UsageFault Progress :=
  if p.trailing then p.word s a
  else
    match a.toList, p.pending with
    | ['-', '-'], _ => .ok { p with trailing := true }
    | '-' :: '-' :: body, _ => p.long s body
    | '-' :: c :: rest, _ => p.short s (c :: rest)
    | _, some (.option setter none) => .ok { p with pending := some (.option setter (some a)) }
    | _, _ => p.word s a

/-- Read a stretch up to its end or to a verb, which is given with what follows. -/
def read (s : Stretch) : Progress → List String →
    Except UsageFault (Progress × Option (Verb × List String))
  | p, [] => .ok (p, none)
  | p, a :: rest => do
    let verb := if s.verb && !p.trailing && !p.awaitsValue then Verb.ofWord? a else none
    match verb with
    | some verb => .ok (p, some (verb, rest))
    | none => read s (← p.take s a) rest

end Progress

inductive Task where
  | run (transcript : String) (autoFollowUp : Bool)
  | check (transcript : String)
  | commands
  | config
deriving DecidableEq, Repr

structure Invocation where
  configPath : Option String
  logLevel : Option String
  schemaPath : Option String
  task : Task
deriving DecidableEq, Repr

namespace Invocation

/-- What a request for help finds. Only the verbs themselves have help. -/
def help : List String → UsageFault
  | [] => .helpAsked
  | w :: rest =>
    match Verb.ofWord? w, rest with
    | none, _ => .unknownVerb w
    | some _, [] => .helpAsked
    | some _, w :: _ => .unknownVerb w

def taskOf (verb : Verb) (p : Progress) : Except UsageFault Task :=
  match verb, p.transcript with
  | .run, some path => .ok (.run path (p.find? .autoFollowUp).isSome)
  | .check, some path => .ok (.check path)
  | .run, none | .check, none => .error .missingTranscript
  | .commands, _ => .ok .commands
  | .config, _ => .ok .config
  | .help, _ => .error .helpAsked

def parse (args : List String) : Except UsageFault Invocation := do
  match ← Progress.read .first .start args with
  | (p, none) =>
    let p ← p.settle
    .error (if p.given.isEmpty then .nothingAsked else .missingVerb)
  | (_, some (.help, rest)) => .error (help rest)
  | (p, some (verb, rest)) =>
    let (q, _) ← Progress.read (.after verb) .start rest
    let q ← q.settle
    let task ← taskOf verb q
    let p ← p.settle
    .ok ⟨(q.find? .config).or (p.find? .config), (q.find? .logLevel).or (p.find? .logLevel),
      q.find? .schema, task⟩

end Invocation

end TaskDialogue.Cli
