import TaskDialogue.Settings.Format
import TaskDialogue.Storage.Folder

/-!
# Files of settings

A path leads to the file at it. If there is none, the path with one of the known extensions
added is tried, so `conf` may be a directory beside the file `conf.toml`.
-/
namespace TaskDialogue.Source

/-- What stands after the last point of a file name, unless the name starts there. -/
def extension? (path : String) : Option String :=
  let name := ((path.toList.splitOn '/').getLast?.getD []).reverse
  match name.span (· ≠ '.') with
  | (_, []) | (_, ['.']) => none
  | (last, _) => some (String.ofList last.reverse)

/-- The end of a path without the marks of a directory, all of it backwards. -/
def bareEnd : List Char → List Char
  | '/' :: rest => bareEnd rest
  | '.' :: '/' :: rest => bareEnd rest
  | cs => cs

/-- The paths that a path with an extension added leads to, each with the format. There are
none if it does not end with a name. -/
def siblings (path : String) : List (String × Format) :=
  match (Folder.steps path).getLast? with
  | none | some ".." => []
  | some _ =>
    let bare := String.ofList (bareEnd path.toList.reverse).reverse
    Format.extensions.map fun e => (bare ++ "." ++ e.1, e.2)

/-- The first of some paths that leads to a file, with its format. -/
def firstFile {m : Type → Type} [Monad m] (locate : Locate m) :
    List (String × Format) → m (Option (Format × String))
  | [] => return none
  | (path, format) :: rest => do
    match ← locate path with
    | .ok (.file text) => return some (format, text)
    | _ => firstFile locate rest

/-- The text that settings are read from, with its format: a file at the path, or one whose
name has an extension more. -/
def text {m : Type → Type} [Monad m] (locate : Locate m) (path : String) :
    m (Option (Format × String)) := do
  match ← locate path with
  | .ok (.file text) =>
    return ((extension? path).bind Format.ofExtension?).map (·, text)
  | _ => firstFile locate (siblings path)

end TaskDialogue.Source
