import TaskDialogue.Transcript.Turn

/-!
# Transcripts as text

```
user: wake me up at 8:30 for swimming
0 create_alarm(time="8:30", label="swim")
1 perform(x0)
lucid: Your alarm is set.
```

A line that holds nothing but the follow marker belongs to the program line above
it. Blank lines and lines that start with a hash sign are comments.
-/
namespace TaskDialogue

/-- Why a text is no transcript. Lines count from one. -/
inductive TranscriptError where
  | invalidLine (line : Nat) (text : String)
  | danglingMarker (line : Nat)
deriving DecidableEq, Repr

def TranscriptError.message : TranscriptError → String
  | invalidLine line text =>
    "line " ++ toString line ++
      ": expected 'user: ', 'lucid: ' or '<index> <expression>', got '" ++ text ++ "'"
  | danglingMarker line =>
    "line " ++ toString line ++ ": follow marker without a preceding program turn"

/-- The turns of a conversation, and the marker that is left out when they are
printed. -/
structure Transcript where
  turns : List Turn
  followMarker : String
deriving DecidableEq

namespace Transcript

/-- An index and, after a blank, an expression. -/
def programLine? (line : List Char) : Option ProgramTurn := do
  let (index, expression) ← Text.splitAtBlank? line
  return ⟨← Text.readIndex? index, String.ofList (Text.trim expression)⟩

/-- What a line without blanks around it stands for. -/
inductive Line where
  | nothing
  | marker
  | turn (t : Turn)
  | invalid
deriving DecidableEq

def Line.ofChars (marker line : List Char) : Line :=
  if line.isEmpty then .nothing
  else if line = marker then .marker
  else
    match Text.dropPrefix? Turn.userMark line with
    | some query => .turn (.user (String.ofList (Text.trim query)))
    | none =>
      match Text.dropPrefix? Turn.agentMark line with
      | some response => .turn (.agent (String.ofList (Text.trim response)))
      | none =>
        match programLine? line with
        | some t => .turn (.program t)
        | none => if line.head? = some '#' then .nothing else .invalid

/-- Attach the marker to the program line that came last. -/
def markLast (marker : List Char) (turns : List Turn) : Option (List Turn) :=
  match turns.getLast? with
  | some (.program t) =>
    some (turns.dropLast ++ [.program { t with
      expression := String.ofList (t.expression.toList ++ '\n' :: marker) }])
  | _ => none

/-- Add what the lines stand for to the turns before them. -/
def readLines (marker : List Char) : (number : Nat) → List (List Char) → List Turn →
    Except TranscriptError (List Turn)
  | _, [], turns => .ok turns
  | number, line :: rest, turns =>
    let line := Text.trim line
    match Line.ofChars marker line with
    | .nothing => readLines marker (number + 1) rest turns
    | .turn t => readLines marker (number + 1) rest (turns ++ [t])
    | .marker =>
      match markLast marker turns with
      | some turns => readLines marker (number + 1) rest turns
      | none => .error (.danglingMarker number)
    | .invalid => .error (.invalidLine number (String.ofList line))

def parse (text marker : String) : Except TranscriptError Transcript :=
  (readLines marker.toList 1 (Text.lines text.toList) []).map (⟨·, marker⟩)

/-- The turns that are shown: an inserted recommendation only when it comes last. -/
def shown : List Turn → List Turn
  | [] => []
  | [t] => [t]
  | t :: rest => if t.isTransient then shown rest else t :: shown rest

/-- The text of a transcript, without a line feed at its end. -/
def display (t : Transcript) : String :=
  String.ofList (List.intercalate ['\n'] ((shown t.turns).map (Turn.render t.followMarker.toList)))

def programTurns (t : Transcript) : List ProgramTurn := t.turns.filterMap Turn.program?

def maxTurnIndex? (t : Transcript) : Option Nat := TaskDialogue.maxTurnIndex? t.turns

def toJson (t : Transcript) : Json :=
  .object [("turns", .array (t.turns.map Turn.toJson)), ("follow_marker", .string t.followMarker)]

def ofJson? (j : Json) : Option Transcript := do
  let [some turns, marker] ← j.record? ["turns", "follow_marker"] | none
  return ⟨← (← turns.array?).mapM Turn.ofJson?,
    ← match marker with | none => some defaultFollowMarker | some m => m.string?⟩

end Transcript

end TaskDialogue
