import TaskDialogue.Number.Read
import TaskDialogue.Settings.EnvFile
import TaskDialogue.Settings.Setting

/-!
# Settings in environment variables

A variable whose name has the program's own start holds a setting. Two underscores in
the rest of the name separate a section from the entry in it, and the case of letters
does not count. A value that reads as a truth value or as a number is one.
-/
namespace TaskDialogue.Environment

/-- What the names of variables with settings start with, in lower case. -/
def keyStart : List Char := "turnscript_".toList

/-- Two underscores become a point. -/
def sections : List Char → List Char
  | '_' :: '_' :: rest => '.' :: sections rest
  | c :: rest => c :: sections rest
  | [] => []

/-- The key that the name of a variable stands for. -/
def key? (name : String) : Option String :=
  (Text.dropPrefix? keyStart (name.toList.map Setting.lowerChar)).map fun rest =>
    String.ofList (sections rest)

def setting (text : String) : Setting :=
  let cs := text.toList
  match String.ofList (cs.map Char.toLower) with
  | "true" => .flag true
  | "false" => .flag false
  | _ =>
    match Number.whole? cs, Number.double? cs with
    | some n, _ => .int n
    | none, some x => .float x
    | none, none => .text text

def settings (env : Environment) : List (String × Setting) :=
  env.filterMap fun (name, value) => (key? name).map (·, setting value)

end TaskDialogue.Environment
