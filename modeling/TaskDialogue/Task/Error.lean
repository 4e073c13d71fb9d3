import TaskDialogue.Syntax.Fault

/-!
# Why a turn fails
-/
namespace TaskDialogue

/-- Why a task that nothing is missing from cannot be performed. -/
inductive PerformError where
  | noRecords (entity : String)
deriving DecidableEq, Repr

def PerformError.message : PerformError → String
  | noRecords entity => "no " ++ entity ++ " records available in the app context"

/-- What part of a turn an error belongs to. -/
inductive ErrorKind where
  | parse
  | resolution
  | arity
  | index
  | protocol
  | perform
deriving DecidableEq, Repr

inductive ExecError where
  | parse (error : SyntaxError)
  | unknownCommand (name : String)
  | unboundVariable (name : String)
  | unsupportedExpression (detail : String)
  | unknownAttribute (owner attr : String)
  | tooManyPositional (command : String) (given accepted : Nat)
  | multipleEntities (var : String)
  | indexOutOfBound (var : String) (index : Int) (length : Nat)
  | noEntity (var : String)
  | notIndexable (var found : String)
  | notATask (var found : String)
  | slotType (owner slot expected found : String)
  | notAList (owner slot : String)
  | crossVariableAssignment (vars : List String)
  | perform (var : String) (cause : PerformError)
deriving DecidableEq, Repr

namespace ExecError

def kind : ExecError → ErrorKind
  | parse _ => .parse
  | unknownCommand _ | unboundVariable _ | unsupportedExpression _ | unknownAttribute _ _ =>
    .resolution
  | tooManyPositional _ _ _ => .arity
  | multipleEntities _ | indexOutOfBound _ _ _ | noEntity _ | notIndexable _ _ => .index
  | notATask _ _ | slotType _ _ _ _ | notAList _ _ | crossVariableAssignment _ => .protocol
  | perform _ _ => .perform

def message : ExecError → String
  | parse error => error.message
  | unknownCommand name => name ++ " is not registered"
  | unboundVariable name => name ++ " not found"
  | unsupportedExpression detail => "unsupported expression: " ++ detail
  | unknownAttribute owner attr => owner ++ " has no attribute '" ++ attr ++ "'"
  | tooManyPositional command given accepted =>
    "too many positional arguments passed to " ++ command ++ ": got " ++ toString given ++
      ", accepts " ++ toString accepted
  | multipleEntities var => "multiple entities found in " ++ var
  | indexOutOfBound var index length =>
    "index " ++ toString index ++ " of entity out of bound in " ++ var ++ " (" ++ toString length ++
      " results)"
  | noEntity var => var ++ " has no entity to update"
  | notIndexable var found => "cannot index " ++ var ++ " of type " ++ found
  | notATask var found => var ++ " must be a Command or Entity (was " ++ found ++ ")"
  | slotType owner slot expected found =>
    owner ++ "." ++ slot ++ " expects " ++ expected ++ ", got " ++ found
  | notAList owner slot => owner ++ "." ++ slot ++ " is not a list"
  | crossVariableAssignment vars =>
    "assignment spans several variables (" ++ ", ".intercalate vars ++
      "); only one may be updated per turn"
  | perform var cause => "failed to perform " ++ var ++ ": " ++ cause.message

end ExecError

end TaskDialogue
