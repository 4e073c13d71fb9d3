import TaskDialogue.Json.Reader
import TaskDialogue.Settings.Ini
import TaskDialogue.Settings.Json5
import TaskDialogue.Settings.Ron
import TaskDialogue.Settings.Toml.Reader
import TaskDialogue.Settings.Yaml.Reader

/-!
# Formats of settings

A file of settings has one of six formats, which the extension of its name tells. What it
holds must be a table.
-/
namespace TaskDialogue

inductive Format where
  | toml
  | json
  | yaml
  | ini
  | ron
  | json5
deriving DecidableEq, Repr

namespace Format

def extensions : List (String × Format) :=
  [("toml", toml), ("json", json), ("yaml", yaml), ("yml", yaml), ("ini", ini), ("ron", ron),
    ("json5", json5)]

/-- The format of an extension, whose letters are small. -/
def ofExtension? (extension : String) : Option Format := extensions.lookup extension

def parseJson? (text : String) : Option (List (String × Setting)) :=
  match (Json.parse text).toOption.map Setting.ofJson with
  | some (.table entries) => some entries
  | _ => none

/-- The settings that a text of a format describes. -/
def parse? : Format → String → Option (List (String × Setting))
  | toml => Toml.parse?
  | json => parseJson?
  | yaml => Yaml.parse?
  | ini => Ini.parse?
  | ron => Ron.parse?
  | json5 => Json5.parse?

end Format

end TaskDialogue
