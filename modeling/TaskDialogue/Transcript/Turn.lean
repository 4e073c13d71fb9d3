import TaskDialogue.Text.Blank
import TaskDialogue.Exec.Executor

/-!
# Turns

A conversation is a list of turns. Those of the program have an index and an
expression; some of them are put in by the application itself.
-/
namespace TaskDialogue

/-- A program line: the index of the turn and the text of its expression, perhaps
with the follow marker. -/
structure ProgramTurn where
  index : Nat
  expression : String
deriving DecidableEq, Repr

inductive Turn where
  | user (query : String)
  | program (turn : ProgramTurn)
  /-- Put in after a result. -/
  | auto (turn : ProgramTurn)
  /-- Put in after a recommendation, and only shown while it is the last turn. -/
  | autoTransient (turn : ProgramTurn)
  | agent (response : String)
deriving DecidableEq, Repr

/-- The expression without blanks and the follow marker at its end. -/
def stripMarker (marker expression : List Char) : List Char :=
  let trimmed := Text.trimEnd expression
  if marker.isEmpty then trimmed
  else
    match Text.dropSuffix? marker trimmed with
    | some rest => Text.trimEnd rest
    | none => trimmed

namespace Turn

def program? : Turn → Option ProgramTurn
  | program t | auto t | autoTransient t => some t
  | user _ | agent _ => none

def index? (t : Turn) : Option Nat := t.program?.map (·.index)

/-- Whether a turn was put in by the application. -/
def isAuto : Turn → Bool
  | auto _ | autoTransient _ => true
  | _ => false

def isTransient : Turn → Bool
  | autoTransient _ => true
  | _ => false

def userMark : List Char := "user:".toList

def agentMark : List Char := "lucid:".toList

/-- The line of a turn. A program line has no follow marker. -/
def render (marker : List Char) : Turn → List Char
  | user query => userMark ++ ' ' :: query.toList
  | agent response => agentMark ++ ' ' :: response.toList
  | program t => (toString t.index).toList ++ ' ' :: stripMarker marker t.expression.toList
  | auto t | autoTransient t => (toString t.index).toList ++ ' ' :: t.expression.toList

/-- The line of a turn with the usual marker. -/
def display (t : Turn) : String := String.ofList (t.render defaultFollowMarker.toList)

def toJson : Turn → Json
  | user query => .object [("kind", .string "user"), ("query", .string query)]
  | program t => line "program" t
  | auto t => line "auto" t
  | autoTransient t => line "auto_transient" t
  | agent response => .object [("kind", .string "agent"), ("response", .string response)]
where
  line (kind : String) (t : ProgramTurn) : Json :=
    .object [("kind", .string kind), ("index", .ofNat t.index), ("expression", .string t.expression)]

def ofJson? (j : Json) : Option Turn := do
  let (kind, body) ← j.tagged? "kind"
  let line : Option ProgramTurn := do
    let [some index, some expression] ← body.record? ["index", "expression"] | none
    return ⟨← index.index?, ← expression.string?⟩
  match kind with
  | "user" =>
    let [some query] ← body.record? ["query"] | none
    return user (← query.string?)
  | "program" => return program (← line)
  | "auto" => return auto (← line)
  | "auto_transient" => return autoTransient (← line)
  | "agent" =>
    let [some response] ← body.record? ["response"] | none
    return agent (← response.string?)
  | _ => none

end Turn

def maxTurnIndex? (turns : List Turn) : Option Nat := (turns.filterMap Turn.index?).max?

end TaskDialogue
