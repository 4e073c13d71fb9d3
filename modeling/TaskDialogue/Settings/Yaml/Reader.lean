import TaskDialogue.Settings.Setting
import TaskDialogue.Settings.Yaml.Node

/-!
# Settings in YAML documents

A text holds one document at most, which must be a map. What makes no sense says nothing.
-/
namespace TaskDialogue.Yaml

def Key.name : Key → String
  | .flag true => "true"
  | .flag false => "false"
  | .int n => toString n
  | .real s | .text s => s

mutual

/-- The setting that a node stands for. The words with a point are no numbers here. -/
def Node.setting? : Node → Option Setting
  | .senseless | .nothing => some .nothing
  | .flag b => some (.flag b)
  | .int n => some (.int n)
  | .real s => (Number.double? s.toList).map .float
  | .text s => some (.text s)
  | .list items => (settings? items).map .list
  | .map entries => (tableOf? [] entries).map .table

def settings? : List Node → Option (List Setting)
  | [] => some []
  | node :: rest => do return (← node.setting?) :: (← settings? rest)

def tableOf? (before : List (String × Setting)) : List (Key × Node) →
    Option (List (String × Setting))
  | [] => some before
  | entry :: rest => do
    let (name, value) ← entryOf? entry
    tableOf? (Setting.insert name value before) rest

def entryOf? : Key × Node → Option (String × Setting)
  | (key, node) => node.setting?.map (key.name, ·)

end

def parse? (text : String) : Option (List (String × Setting)) := do
  match ← documents? text with
  | [] => return []
  | [node] =>
    let .table entries ← node.setting? | none
    return entries
  | _ => none

end TaskDialogue.Yaml
