import TaskDialogue.Syntax.Pattern
import TaskDialogue.Syntax.Draft

/-!
# The grammar of program turns

A turn is a list of statements between semicolons or line feeds. The only rule
that contains itself is the expression; each time around it takes a character, so
a text of `n` characters is read with expressions nested at most `n + 1` deep.
-/
namespace TaskDialogue.Syntax

/-! ### Words -/

def isIdentStart (c : Char) : Bool := c.isAlpha || c == '_'

def isIdentChar (c : Char) : Bool := c.isAlphanum || c == '_'

/-- The words that are no identifiers. -/
def reserved : List String := ["None", "True", "False", "true", "false"]

/-- The given word, unless it goes on. -/
def scanWord (word : String) (cs : List Char) : Option (List Char × List Char) :=
  let text := cs.takeWhile isIdentChar
  if text = word.toList then some (text, cs.dropWhile isIdentChar) else none

def scanBoolean (cs : List Char) : Option (List Char × List Char) :=
  ["True", "False", "true", "false"].findSome? (scanWord · cs)

def scanIdentifier (cs : List Char) : Option (List Char × List Char) :=
  let word := cs.takeWhile isIdentChar
  if word.head?.any isIdentStart && !reserved.any (·.toList = word) then
    some (word, cs.dropWhile isIdentChar)
  else none

def scanFraction (cs : List Char) : List Char × List Char :=
  match cs with
  | '.' :: rest =>
    if rest.head?.any Char.isDigit then
      ('.' :: rest.takeWhile Char.isDigit, rest.dropWhile Char.isDigit)
    else ([], cs)
  | _ => ([], cs)

def scanExponent (cs : List Char) : List Char × List Char :=
  let digits (taken rest : List Char) :=
    if rest.head?.any Char.isDigit then
      (taken ++ rest.takeWhile Char.isDigit, rest.dropWhile Char.isDigit)
    else ([], cs)
  match cs with
  | [] => ([], cs)
  | e :: rest =>
    if e = 'e' || e = 'E' then
      match rest with
      | '+' :: rest => digits [e, '+'] rest
      | '-' :: rest => digits [e, '-'] rest
      | _ => digits [e] rest
    else ([], cs)

/-- Digits after an optional minus sign, then a fraction and an exponent. -/
def scanNumber (cs : List Char) : Option (List Char × List Char) :=
  let (sign, cs) := match cs with
    | '-' :: rest => (['-'], rest)
    | _ => ([], cs)
  let whole := cs.takeWhile Char.isDigit
  if whole.isEmpty then none else
  let (fraction, rest) := scanFraction (cs.dropWhile Char.isDigit)
  let (exponent, rest) := scanExponent rest
  some (sign ++ whole ++ fraction ++ exponent, rest)

/-- The characters up to the closing quote, and what starts with that quote. A
backslash takes the next character along, and no line ends within a string. -/
def scanQuoted (quote : Char) : List Char → List Char × List Char
  | [] => ([], [])
  | ['\\'] => ([], ['\\'])
  | '\\' :: c :: rest =>
    let r := scanQuoted quote rest
    ('\\' :: c :: r.1, r.2)
  | c :: rest =>
    if c = quote || c = '\n' || c = '\r' then ([], c :: rest)
    else
      let r := scanQuoted quote rest
      (c :: r.1, r.2)

def scanString (cs : List Char) : Option (List Char × List Char) :=
  match cs with
  | [] => none
  | q :: rest =>
    if q = '"' || q = '\'' then
      match scanQuoted q rest with
      | (body, c :: after) => if c = q then some (q :: body ++ [q], after) else none
      | (_, []) => none
    else none

/-! ### Expressions -/

open Pattern

def identifier : Pattern (String × Span) :=
  (token .identifier scanIdentifier).map fun r => (String.ofList r.1, r.2)

def noneLit : Pattern (Draft Expr) :=
  (token .noneLit (scanWord "None")).map fun r => .ok (.none r.2)

def booleanLit : Pattern (Draft Expr) :=
  (token .boolean scanBoolean).map fun r => .ok (boolean r.1 r.2)

def numberLit : Pattern (Draft Expr) :=
  (token .number scanNumber).map fun r => number r.1 r.2

/-- The text between the quotes, with its escapes resolved. -/
def stringLit : Pattern (Draft Expr) :=
  (token .string scanString).map fun r =>
    .ok (.str (String.ofList (unescape r.1.tail.dropLast)) r.2)

def literal : Pattern (Draft Expr) :=
  noneLit.orElse (booleanLit.orElse (numberLit.orElse stringLit))

section

variable (expression : Pattern (Draft Expr × Span))

def listLit : Pattern (Draft Expr) :=
  (rule .listLit ((symbol '[').seqRight
      ((commaList expression).optional.seqLeft (symbol ']')))).map fun r => do
    let elements ← collect ((r.1.getD []).map (·.1))
    return .list elements r.2

def keywordArg : Pattern Argument :=
  (rule .keywordArg (identifier.seq ((symbol '=').seqRight expression))).map fun r =>
    .keyword r.1.1.1 r.1.2.1 r.2

def argument : Pattern Argument :=
  (keywordArg expression).orElse (expression.map fun r => .positional r.1 r.2)

def callSuffix : Pattern (Suffix × Span) :=
  (rule .callSuffix ((symbol '(').seqRight
      ((commaList (argument expression)).optional.seqLeft (symbol ')')))).map fun r =>
    (.call (r.1.getD []), r.2)

def attrAccess : Pattern (Suffix × Span) :=
  (rule .attrAccess ((symbol '.').seqRight identifier)).map fun r => (.attr r.1.1, r.2)

def indexAccess : Pattern (Suffix × Span) :=
  (rule .indexAccess ((symbol '[').seqRight (expression.seqLeft (symbol ']')))).map fun r =>
    (.index r.1.1, r.2)

/-- A name and what follows it. -/
def postfixExpr : Pattern (Draft Expr) :=
  (rule .postfixExpr (identifier.seq
      ((callSuffix expression).orElse (attrAccess.orElse (indexAccess expression))).many)).map
    fun r => chain (.name r.1.1.1 r.1.1.2) r.1.2

/-- An expression, given the pattern for those within it. -/
def expressionWith : Pattern (Draft Expr × Span) :=
  rule .expression (literal.orElse ((listLit expression).orElse (postfixExpr expression)))

end

/-- Expressions nested less than `depth` deep. -/
def expression : (depth : Nat) → Pattern (Draft Expr × Span)
  | 0 => .fail
  | depth + 1 => expressionWith (expression depth)

/-! ### Statements -/

section

variable (expression : Pattern (Draft Expr × Span))

/-- At least two items with commas between them, or one with a comma after it. -/
def tupleOf {α : Type} (item : Pattern α) : Pattern (List α) :=
  let more := (symbol ',').seqRight item
  (item.seq (((more.seq (more.many.seqLeft (symbol ',').optional)).map fun r => r.1 :: r.2).orElse
    ((symbol ',').map fun _ => []))).map fun r => r.1 :: r.2

def targetList : Pattern (List (Draft Expr)) :=
  (rule .targetList (tupleOf (postfixExpr expression))).map (·.1)

def valueList : Pattern (List (Draft Expr)) :=
  let values := (tupleOf expression).map fun vs => vs.map (·.1)
  (rule .valueList (((symbol '(').seqRight (values.seqLeft (symbol ')'))).orElse values)).map (·.1)

def tupleAssign : Pattern (Draft Stmt) :=
  (rule .tupleAssign ((targetList expression).seq
      ((symbol '=').seqRight (valueList expression)))).map fun r => do
    let targets ← collect r.1.1
    let values ← collect r.1.2
    tupleStmt targets values r.2

def assign : Pattern (Draft Stmt) :=
  (rule .assign ((postfixExpr expression).seq ((symbol '=').seqRight expression))).map fun r => do
    let target ← r.1.1
    let value ← r.1.2.1
    assignStmt target value r.2

def exprStatement : Pattern (Draft Stmt) :=
  (rule .exprStmt expression).map fun r => do
    let value ← r.1.1
    exprStmt value r.2

def statement : Pattern (Draft Stmt) :=
  (rule .statement ((tupleAssign expression).orElse
    ((assign expression).orElse (exprStatement expression)))).map (·.1)

def separator : Pattern Unit := (symbol ';').orElse (symbol '\n')

def statements : Pattern (List (Draft Stmt)) :=
  let next := (separator.seq separator.many).seqRight (statement expression)
  ((statement expression).seq (next.many.seqLeft separator.many)).map fun r => r.1 :: r.2

/-- A whole text. -/
def turn : Pattern (List (Draft Stmt)) :=
  (rule .turn (nothing.seqRight (separator.many.seqRight
    ((statements expression).optional.seqLeft endOfText)))).map fun r => r.1.getD []

end

end TaskDialogue.Syntax

namespace TaskDialogue

open Syntax

def Program.parse (text : String) : Except SyntaxError Program :=
  let cs := text.toList
  let pattern := turn (expression (cs.length + 1))
  let start : Cursor := ⟨0, cs⟩
  match pattern.read start with
  | some (drafts, _) => (collect drafts).map (⟨·⟩)
  | none =>
    let trace := pattern.trace start ⟨0, []⟩
    .error (.mismatch ⟨cs, trace.offset, trace.expected⟩)

end TaskDialogue
