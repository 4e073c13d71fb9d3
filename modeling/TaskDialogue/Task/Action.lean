import TaskDialogue.Task.Entity

/-!
# What a turn hands back

A turn ends with what was done or with what is asked for next.
-/
namespace TaskDialogue

/-- What a task asks for before it can be performed. -/
inductive RecommendedAction where
  | requestValue (dialogue name : String)
  | requestDisambiguation (dialogue name : String) (options : List String)
  | requestConfirmation (dialogue name : String)
deriving DecidableEq, Repr

namespace RecommendedAction

def askValue (slot : String) : RecommendedAction := .requestValue ("Ask for " ++ slot) slot

/-- Ask which of several values a slot takes. -/
def askChoice (slot : String) (options : List String) : RecommendedAction :=
  .requestDisambiguation (slot ++ " (" ++ ", ".intercalate options ++ ")") slot options

def askConfirmation : RecommendedAction := .requestConfirmation "Please confirm" "confirmation"

def dialogue : RecommendedAction → String
  | requestValue d _ | requestDisambiguation d _ _ | requestConfirmation d _ => d

/-- The name that a task is told when the recommendation is followed. -/
def name : RecommendedAction → String
  | requestValue _ n | requestDisambiguation _ n _ | requestConfirmation _ n => n

def toJson : RecommendedAction → Json
  | requestValue dialogue name =>
    .object [("kind", .string "request_value"), ("dialogue", .string dialogue), ("name", .string name)]
  | requestDisambiguation dialogue name options =>
    .object [("kind", .string "request_disambiguation"), ("dialogue", .string dialogue),
      ("name", .string name), ("options", Json.ofStrings options)]
  | requestConfirmation dialogue name =>
    .object [("kind", .string "request_confirmation"), ("dialogue", .string dialogue),
      ("name", .string name)]

def ofJson? (j : Json) : Option RecommendedAction := do
  let (kind, body) ← j.tagged? "kind"
  match kind with
  | "request_value" =>
    let [some dialogue, some name] ← body.record? ["dialogue", "name"] | none
    return requestValue (← dialogue.string?) (← name.string?)
  | "request_disambiguation" =>
    let [some dialogue, some name, some options] ← body.record? ["dialogue", "name", "options"] | none
    return requestDisambiguation (← dialogue.string?) (← name.string?) (← options.strings?)
  | "request_confirmation" =>
    let [some dialogue, some name] ← body.record? ["dialogue", "name"] | none
    return requestConfirmation (← dialogue.string?) (← name.string?)
  | _ => none

end RecommendedAction

/-- What a turn produced. -/
inductive ActionOutput where
  | inform (dialogue : String)
  | informList (dialogue : String) (items : List Entity)
  | value (value : Value)
deriving DecidableEq

namespace ActionOutput

def dialogue? : ActionOutput → Option String
  | inform d | informList d _ => some d
  | value _ => none

def toJson : ActionOutput → Json
  | inform dialogue => .object [("kind", .string "inform"), ("dialogue", .string dialogue)]
  | informList dialogue items =>
    .object [("kind", .string "inform_list"), ("dialogue", .string dialogue),
      ("items", .array (items.map Entity.toJson))]
  | value v => .object [("kind", .string "value"), ("value", v.toJson)]

def ofJson? (j : Json) : Option ActionOutput := do
  let (kind, body) ← j.tagged? "kind"
  match kind with
  | "inform" =>
    let [some dialogue] ← body.record? ["dialogue"] | none
    return inform (← dialogue.string?)
  | "inform_list" =>
    let [some dialogue, some items] ← body.record? ["dialogue", "items"] | none
    return informList (← dialogue.string?) (← (← items.array?).mapM (Entity.ofJson? true))
  | "value" =>
    let [some v] ← body.record? ["value"] | none
    return value (← Value.ofJson? true v)
  | _ => none

end ActionOutput

/-- The outcome of a turn: the index of the variable it acted on, with what it
produced or what it recommends. -/
structure ActionResult where
  index : Nat
  result : Option ActionOutput
  recommendedAction : Option RecommendedAction
deriving DecidableEq

namespace ActionResult

def empty (index : Nat) : ActionResult := ⟨index, none, none⟩

def performed (index : Nat) (result : Option ActionOutput) : ActionResult := ⟨index, result, none⟩

def recommended (index : Nat) (action : RecommendedAction) : ActionResult :=
  ⟨index, none, some action⟩

def toJson (r : ActionResult) : Json :=
  Json.objectOf [("index", some (.ofNat r.index)), ("result", r.result.map ActionOutput.toJson),
    ("recommended_action", r.recommendedAction.map RecommendedAction.toJson)]

/-- An optional field: absent and `null` are nothing. -/
def optional? {α : Type} (read : Json → Option α) : Option Json → Option (Option α)
  | none | some .null => some none
  | some j => (read j).map some

def ofJson? (j : Json) : Option ActionResult := do
  let [some index, result, action] ← j.record? ["index", "result", "recommended_action"] | none
  return ⟨← index.index?, ← optional? ActionOutput.ofJson? result,
    ← optional? RecommendedAction.ofJson? action⟩

end ActionResult

end TaskDialogue
