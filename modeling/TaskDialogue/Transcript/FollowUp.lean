import TaskDialogue.Transcript.Turn

/-!
# Follow-up turns

The application answers a turn with a turn of its own: a recommendation becomes a
hint that says it, and a result becomes a mark that the task was performed.
-/
namespace TaskDialogue

/-- A character as it stands in a string literal with double quotes. -/
def escapeChar (c : Char) : List Char :=
  if c = '\\' then ['\\', '\\'] else if c = '"' then ['\\', '"'] else [c]

/-- A text as it stands in a string literal with double quotes. -/
def escape (text : List Char) : List Char := text.flatMap escapeChar

def RecommendedAction.opening : RecommendedAction → String
  | requestValue _ _ => "ask for value"
  | requestDisambiguation _ _ _ => "choose between values"
  | requestConfirmation _ _ => "please confirm"

def RecommendedAction.hint (action : RecommendedAction) : String :=
  action.opening ++ ": " ++ action.dialogue

/-- The turn that the application adds after a result. -/
def followUp? (result : ActionResult) (next : Nat) : Option Turn :=
  let reference := varName result.index
  match result.recommendedAction, result.result with
  | some action, _ =>
    let message := String.ofList (escape action.hint.toList)
    some (.autoTransient ⟨next, "hint(\"" ++ message ++ "\", ref=" ++ reference ++ ")"⟩)
  | none, some (.inform _) | none, some (.informList _ _) =>
    some (.auto ⟨next, "perform(" ++ reference ++ ")"⟩)
  | none, _ => none

end TaskDialogue
