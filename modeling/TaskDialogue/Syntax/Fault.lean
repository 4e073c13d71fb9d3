import TaskDialogue.Syntax.Basic
import TaskDialogue.Text.Bytes

/-!
# Why a turn is not a program

A text that leaves the grammar is reported where reading got farthest, with the
rules that were tried there. A text of the grammar can still hold a statement
that means nothing; then the offending part is reported.
-/
namespace TaskDialogue

/-- The rules of the turn grammar that a report may name, in its order. -/
inductive Rule where
  | endOfText
  | turn
  | statement
  | tupleAssign
  | targetList
  | valueList
  | assign
  | exprStmt
  | expression
  | postfixExpr
  | callSuffix
  | keywordArg
  | attrAccess
  | indexAccess
  | listLit
  | noneLit
  | boolean
  | number
  | string
  | identifier
deriving DecidableEq, Repr

namespace Rule

def all : List Rule :=
  [endOfText, turn, statement, tupleAssign, targetList, valueList, assign, exprStmt, expression,
   postfixExpr, callSuffix, keywordArg, attrAccess, indexAccess, listLit, noneLit, boolean, number,
   string, identifier]

theorem mem_all (r : Rule) : r ∈ all := by cases r <;> decide

/-- The name of a rule in a report. -/
def label : Rule → String
  | endOfText => "EOI"
  | turn => "turn"
  | statement => "statement"
  | tupleAssign => "tuple_assign"
  | targetList => "target_list"
  | valueList => "value_list"
  | assign => "assign"
  | exprStmt => "expr_stmt"
  | expression => "expression"
  | postfixExpr => "postfix_expr"
  | callSuffix => "call_suffix"
  | keywordArg => "keyword_arg"
  | attrAccess => "attr_access"
  | indexAccess => "index_access"
  | listLit => "list_lit"
  | noneLit => "none_lit"
  | boolean => "boolean"
  | number => "number"
  | string => "string"
  | identifier => "identifier"

end Rule

/-- Where a text leaves the grammar, and what could have stood there. -/
structure Mismatch where
  source : List Char
  offset : Nat
  expected : List Rule
deriving DecidableEq, Repr

/-- What is wrong with a statement that the grammar admits. -/
inductive Misuse where
  | callOn (shape : String)
  | appendTarget
  | appendArguments (given : Nat)
  | assignTo (shape : String)
  | tupleLengths (values targets : Nat)
  | keywordRepeated (name : String)
  | positionalAfterKeyword
  | integerTooLarge (text : String)
  | integerTooSmall (text : String)
deriving DecidableEq, Repr

/-- Why a turn text is not a program of one statement. -/
inductive SyntaxError where
  | mismatch (report : Mismatch)
  | misuse (cause : Misuse) (span : Span)
  | noExpression
  | severalStatements (count : Nat)
deriving DecidableEq, Repr

/-- Names as a sentence lists them: `a`, `a or b`, `a, b, or c`. -/
def listNames : List String → String
  | [] => ""
  | [a] => a
  | [a, b] => a ++ " or " ++ b
  | names => ", ".intercalate names.dropLast ++ ", or " ++ names.getLastD ""

namespace Mismatch

/-- The characters before a byte offset and those from it on. -/
def splitAtByte : Nat → List Char → List Char × List Char
  | _, [] => ([], [])
  | n, c :: cs =>
    if n = 0 then ([], c :: cs)
    else
      let r := splitAtByte (n - c.utf8Size) cs
      (c :: r.1, r.2)

/-- The rules that were expected, each once and in the order of the grammar. -/
def labels (m : Mismatch) : List String :=
  (Rule.all.filter (m.expected.contains ·)).map Rule.label

/-- The line that the offset lies on, with its line end. An offset at the last
byte of the text takes the line up to the end of the text. -/
def line (m : Mismatch) : List Char :=
  let (before, after) := splitAtByte m.offset m.source
  let start := (before.reverse.takeWhile (· ≠ '\n')).reverse
  let size := Text.byteLength m.source
  if m.offset + 1 = size then start ++ after
  else
    match after.span (· ≠ '\n') with
    | (rest, '\n' :: _) => start ++ rest ++ ['\n']
    | (rest, _) => start ++ rest

/-- The report: the place, the line with a mark under the place, and what was
expected there. Line ends are left out of the line, or shown by their symbols if
the place is at one. -/
def message (m : Mismatch) : String :=
  let (before, after) := splitAtByte m.offset m.source
  let row := before.count '\n' + 1
  let column := (before.reverse.takeWhile (· ≠ '\n')).length + 1
  let atLineEnd := after.head? = some '\n' || after.head? = some '\r'
  let shown :=
    if atLineEnd then
      m.line.map fun c => if c = '\r' then '\u240d' else if c = '\n' then '\u240a' else c
    else m.line.filter fun c => c ≠ '\r' && c ≠ '\n'
  let mark := (shown.take (column - 1)).map fun c => if c = '\t' then '\t' else ' '
  let margin := String.ofList (List.replicate (toString row).length ' ')
  let reason := if m.expected.isEmpty then "unknown parsing error" else "expected " ++ listNames m.labels
  "\n".intercalate
    [margin ++ "--> " ++ toString row ++ ":" ++ toString column,
     margin ++ " |",
     toString row ++ " | " ++ String.ofList shown,
     margin ++ " | " ++ String.ofList mark ++ "^---",
     margin ++ " |",
     margin ++ " = " ++ reason]

end Mismatch

def Misuse.message : Misuse → String
  | callOn shape => "unsupported expression: call on " ++ shape
  | appendTarget =>
    "unsupported expression: append must target a field of a variable (var.field.append(value))"
  | appendArguments given =>
    "append takes exactly one positional argument (" ++ toString given ++ " given)"
  | assignTo shape => "unsupported expression: cannot assign to " ++ shape
  | tupleLengths values targets =>
    "cannot assign " ++ toString values ++ " values to " ++ toString targets ++ " targets"
  | keywordRepeated name => "keyword argument repeated: " ++ name
  | positionalAfterKeyword => "positional argument follows keyword argument"
  | integerTooLarge text =>
    "Failed to parse number '" ++ text ++ "': number too large to fit in target type"
  | integerTooSmall text =>
    "Failed to parse number '" ++ text ++ "': number too small to fit in target type"

namespace SyntaxError

def message : SyntaxError → String
  | mismatch report => report.message
  | misuse cause _ => cause.message
  | noExpression => "no expression found"
  | severalStatements count =>
    "exactly one expression or assignment allowed (found " ++ toString count ++ ")"

/-- The part of the text that is at fault. -/
def span? : SyntaxError → Option Span
  | mismatch report => some ⟨report.offset, report.offset⟩
  | misuse _ span => some span
  | noExpression | severalStatements _ => none

end SyntaxError

end TaskDialogue
