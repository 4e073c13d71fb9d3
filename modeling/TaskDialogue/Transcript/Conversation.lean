import TaskDialogue.Transcript.Text
import TaskDialogue.Transcript.FollowUp

/-!
# Conversations

Program turns are executed as they are added. One that fails leaves the state as it
was before it and does not enter the transcript; that it was tried is kept among
the outcomes. Follow-up turns are added after program turns if that is asked for,
and have none of their own.
-/
namespace TaskDialogue

/-- A program turn that was tried, and how it ended. -/
structure TurnOutcome where
  index : Nat
  expression : String
  /-- Whether the application put it in. -/
  auto : Bool
  outcome : Except ExecError ActionResult

namespace TurnOutcome

def failed (o : TurnOutcome) : Bool :=
  match o.outcome with
  | .ok _ => false
  | .error _ => true

def toJson (o : TurnOutcome) : Json :=
  Json.objectOf
    [("index", some (.ofNat o.index)), ("expression", some (.string o.expression)),
     ("auto", if o.auto then some (.bool true) else none),
     ("result", match o.outcome with | .ok r => some r.toJson | .error _ => none),
     ("error", match o.outcome with | .ok _ => none | .error e => some (.string e.message))]

end TurnOutcome

/-- What became of a conversation. Its identifier and the time at which it started are left out: they
are drawn anew for every conversation, and nothing else depends on them. -/
structure ConversationReport where
  turns : List TurnOutcome
  completed : List String
  incomplete : List String

def ConversationReport.toJson (r : ConversationReport) : Json :=
  .object [("turns", .array (r.turns.map TurnOutcome.toJson)),
    ("completed", Json.ofStrings r.completed), ("incomplete", Json.ofStrings r.incomplete)]

structure Conversation where
  executor : Executor
  autoFollowUp : Bool
  state : State
  turns : List Turn
  outcomes : List TurnOutcome

namespace Conversation

def start (executor : Executor) (state : State) (autoFollowUp : Bool) : Conversation :=
  ⟨executor, autoFollowUp, state, [], []⟩

def transcript (c : Conversation) : Transcript := ⟨c.turns, c.executor.options.followMarker⟩

def nextIndex (c : Conversation) : Nat := (maxTurnIndex? c.turns).elim 0 (· + 1)

/-- Add a turn that is not executed. -/
def say (c : Conversation) (turn : Turn) : Conversation := { c with turns := c.turns ++ [turn] }

/-- Execute the program line of a turn and add the turn, if it succeeds. -/
def attempt (c : Conversation) (turn : Turn) (line : ProgramTurn) :
    Except ExecError ActionResult × Conversation :=
  match c.executor.execute line.index line.expression c.state with
  | (.ok result, state) =>
    (.ok result, { c with
      state
      turns := c.turns ++ [turn]
      outcomes := c.outcomes ++ [⟨line.index, line.expression, turn.isAuto, .ok result⟩] })
  | (.error e, _) =>
    (.error e, { c with
      outcomes := c.outcomes ++ [⟨line.index, line.expression, turn.isAuto, .error e⟩] })

/-- Add the follow-up turn of a result, if there is one. Whether it succeeds does not
matter to the turn that it follows. -/
def addFollowUp (c : Conversation) (result : ActionResult) : Conversation :=
  match followUp? result c.nextIndex with
  | none => c
  | some turn =>
    match turn.program? with
    | none => c
    | some line => (c.attempt turn line).2

/-- Add a turn, with its follow-up. The result is that of its program line. -/
def push (c : Conversation) (turn : Turn) :
    Option (Except ExecError ActionResult) × Conversation :=
  match turn.program? with
  | none => (none, c.say turn)
  | some line =>
    match c.attempt turn line with
    | (.error e, c) => (some (.error e), c)
    | (.ok result, c) =>
      (some (.ok result),
        if c.autoFollowUp && !turn.isAuto then c.addFollowUp result else c)

/-- Execute an expression as the next program turn. -/
def pushProgram (c : Conversation) (expression : String) :
    Except ExecError ActionResult × Conversation :=
  let line : ProgramTurn := ⟨c.nextIndex, expression⟩
  match c.attempt (.program line) line with
  | (.error e, c) => (.error e, c)
  | (.ok result, c) => (.ok result, if c.autoFollowUp then c.addFollowUp result else c)

/-- Add turns in order, also past those that fail. -/
def run (c : Conversation) (turns : List Turn) : Conversation :=
  turns.foldl (fun c turn => (c.push turn).2) c

/-- Whether one variable comes before another in a report: those of no turn first. -/
def completedBefore (a b : String) : Bool :=
  match varIndex? a, varIndex? b with
  | none, _ => true
  | some _, none => false
  | some i, some j => i ≤ j

def report (c : Conversation) : ConversationReport :=
  ⟨c.outcomes, c.state.completed.mergeSort completedBefore, c.state.incomplete⟩

end Conversation

end TaskDialogue
