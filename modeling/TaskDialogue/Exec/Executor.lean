import TaskDialogue.Syntax.Grammar
import TaskDialogue.Syntax.FollowMarker
import TaskDialogue.Syntax.Rewriter
import TaskDialogue.Exec.Run

/-!
# Executing turns

The text of a turn is split from its follow marker, parsed, rewritten, classified and
run. What happens is fixed by the commands, the rules, the options and the state; a
turn that fails keeps what it did before it failed.
-/
namespace TaskDialogue

structure ExecutorOptions where
  multiTargetPolicy : MultiTargetPolicy
  followMarker : String
deriving DecidableEq, Repr

/-- The marker of turns that follow a recommendation, unless another one is set. -/
def defaultFollowMarker : String := "#y"

def ExecutorOptions.defaults : ExecutorOptions := ⟨.mostUpdated, defaultFollowMarker⟩

/-- What turns are run with. -/
structure Executor where
  registry : Registry
  rewriter : Rewriter
  options : ExecutorOptions

namespace Executor

/-- The program of a turn text, and whether the turn follows the recommendation. -/
def prepare (x : Executor) (text : String) : Except SyntaxError (Program × Bool) :=
  match splitFollowMarker? x.options.followMarker.toList text.toList with
  | none => .error .noExpression
  | some (expression, followed) => do
    let p ← Program.parse (String.ofList expression)
    return (x.rewriter.apply p, followed)

def classify (x : Executor) (turn : Nat) (p : Program) (s : State) :
    Except ExecError Call × State :=
  Exec.classify x.registry x.options.multiTargetPolicy turn p s

def executeProgram (x : Executor) (turn : Nat) (p : Program) (followed : Bool) (s : State) :
    Except ExecError ActionResult × State :=
  match x.classify turn p s with
  | (.error e, s) => (.error e, s)
  | (.ok call, s) => Exec.run call followed s

def execute (x : Executor) (turn : Nat) (text : String) (s : State) :
    Except ExecError ActionResult × State :=
  match x.prepare text with
  | .error e => (.error (.parse e), s)
  | .ok (p, followed) => x.executeProgram turn p followed s

/-- Execute turn texts with their indices in order, up to the first that fails. -/
def executeAll (x : Executor) : List (Nat × String) → State →
    Except ExecError (List ActionResult) × State
  | [], s => (.ok [], s)
  | (turn, text) :: rest, s =>
    match x.execute turn text s with
    | (.error e, s) => (.error e, s)
    | (.ok result, s) =>
      match x.executeAll rest s with
      | (.error e, s) => (.error e, s)
      | (.ok results, s) => (.ok (result :: results), s)

end Executor

end TaskDialogue
