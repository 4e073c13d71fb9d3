import TaskDialogue.Syntax.Basic

/-!
# Sugar

Two calls stand for other statements: `confirm(x)` for `x.confirmed = True`, and
`resume(x)` for the bare `x`, which runs the task of `x` again. Only a call that is
a whole program and has one name as its only argument is expanded.
-/
namespace TaskDialogue

/-- The flag that a confirmation sets. -/
def confirmedAttr : String := "confirmed"

/-- A call that stands for another statement. -/
inductive Sugar where
  | confirm
  | resume
deriving DecidableEq, Repr

namespace Sugar

def id : Sugar → String
  | confirm => "confirm"
  | resume => "resume"

def ofId? : String → Option Sugar
  | "confirm" => some confirm
  | "resume" => some resume
  | _ => none

/-- The variable of a call `id(variable)` that is the whole program, with its range
and the range of the statement. -/
def match? (sugar : Sugar) (p : Program) : Option (String × Span × Span) :=
  match p.body with
  | [.expr (.call (.name f _) [.name var varSpan] [] _) span] =>
    if f = sugar.id then some (var, varSpan, span) else none
  | _ => none

/-- The statement that the call stands for. -/
def meaning (sugar : Sugar) (var : String) (varSpan span : Span) : Stmt :=
  match sugar with
  | confirm => .assign (.field (.name var varSpan) confirmedAttr varSpan) (.bool true span) span
  | resume => .expr (.name var varSpan) span

/-- The program with the call expanded, when it is one. -/
def expand (sugar : Sugar) (p : Program) : Program :=
  match sugar.match? p with
  | some (var, varSpan, span) => ⟨[sugar.meaning var varSpan span]⟩
  | none => p

/-- The program after each expansion in turn. -/
def expandAll (sugars : List Sugar) (p : Program) : Program :=
  sugars.foldl (fun p sugar => sugar.expand p) p

/-- What is expanded unless it is said otherwise. -/
def defaults : List Sugar := [confirm, resume]

end Sugar

end TaskDialogue
