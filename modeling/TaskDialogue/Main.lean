import TaskDialogue.Cli.Run

/-!
# The program

Texts are read from disk and the environment from the system. Everything else is decided
elsewhere.
-/
namespace TaskDialogue

def locateDisk : Locate IO := fun path => do
  if path.toList.contains '\x00' then return .error .nulInPath
  try
    let text ← IO.FS.readFile path
    return .ok (if "/dev/".toList.isPrefixOf path.toList then .device text else .file text)
  catch e =>
    return match e with
      | .noFileOrDirectory _ _ _ => .error .notFound
      | .inappropriateType _ 21 _ => .ok .directory
      | .inappropriateType _ _ _ => .error .notADirectory
      | .invalidArgument _ _ _ => .error .nameTooLong
      | e => .error (.other (toString e))

/-- The variables that the program was started with. -/
def readEnvironment : IO Environment := do
  match ← locateDisk.read "/proc/self/environ" with
  | .error _ => return []
  | .ok text =>
    return (text.toList.splitOn '\x00').filterMap fun entry =>
      match entry.span (· ≠ '=') with
      | (name, _ :: value) => some (String.ofList name, String.ofList value)
      | _ => none

end TaskDialogue

open TaskDialogue

def main (args : List String) : IO UInt32 := do
  match Cli.Invocation.parse args with
  | .error .helpAsked =>
    IO.println Cli.UsageFault.helpAsked.message
    return 0
  | .error fault =>
    IO.eprintln fault.message
    return 2
  | .ok invocation =>
    let outcome ← Cli.run locateDisk (← readEnvironment) invocation
    IO.print outcome.output
    match outcome.failure with
    | none => return 0
    | some failure =>
      IO.eprintln ("Error: " ++ ": ".intercalate failure.chain)
      return 1
