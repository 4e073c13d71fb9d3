import TaskDialogue.Syntax.Fault

/-!
# From phrases to syntax trees

A phrase of the grammar is a draft: a tree, or what is wrong with it. Drafts are
put together in the order of the text, so the first misuse is the one reported,
and none is reported before the whole text was read.
-/
namespace TaskDialogue.Syntax

/-- A tree, or the first thing that is wrong with its text. -/
abbrev Draft (α : Type) := Except SyntaxError α

/-- A draft of what cannot be built. -/
def misused {α : Type} (cause : Misuse) (span : Span) : Draft α := .error (.misuse cause span)

/-- The character that a backslash and `c` stand for. -/
def escaped (c : Char) : Char :=
  if c = 'n' then '\n' else if c = 't' then '\t' else if c = 'r' then '\r' else c

/-- The characters that a string literal stands for. -/
def unescape : List Char → List Char
  | [] => []
  | ['\\'] => ['\\']
  | '\\' :: c :: rest => escaped c :: unescape rest
  | c :: rest => c :: unescape rest

/-- The integer that an optional minus sign and digits denote. -/
def readInteger (cs : List Char) : Int :=
  match cs with
  | '-' :: digits => -(Nat.ofDigitChars 10 digits 0)
  | _ => Nat.ofDigitChars 10 cs 0

/-- The double nearest to a decimal with an optional fraction and exponent. -/
def readDecimal (cs : List Char) : Double :=
  let (negative, cs) := match cs with
    | '-' :: rest => (true, rest)
    | _ => (false, cs)
  let whole := cs.takeWhile Char.isDigit
  let (fraction, rest) := match cs.dropWhile Char.isDigit with
    | '.' :: rest => (rest.takeWhile Char.isDigit, rest.dropWhile Char.isDigit)
    | rest => ([], rest)
  let exponent := match rest with
    | _ :: '+' :: digits => readInteger digits
    | _ :: rest => readInteger rest
    | [] => 0
  Double.ofScientific negative (Nat.ofDigitChars 10 (whole ++ fraction) 0)
    (exponent - fraction.length)

/-- Whether a number text has a fraction or an exponent. -/
def isDecimal (cs : List Char) : Bool := cs.any fun c => c == '.' || c == 'e' || c == 'E'

/-- A number: a double when it has a fraction or an exponent, else an integer of
64 bits. -/
def number (text : List Char) (span : Span) : Draft Expr :=
  if isDecimal text then .ok (.float (readDecimal text) span)
  else
    let n := readInteger text
    if Int64.maxValue.toInt < n then misused (.integerTooLarge (String.ofList text)) span
    else if n < Int64.minValue.toInt then misused (.integerTooSmall (String.ofList text)) span
    else .ok (.int (Int64.ofInt n) span)

def boolean (text : List Char) (span : Span) : Expr :=
  .bool (text = "True".toList || text = "true".toList) span

/-- The items of a sequence, unless one of them is wrong. -/
def collect {α : Type} : List (Draft α) → Draft (List α)
  | [] => .ok []
  | d :: ds => do
    let a ← d
    let as ← collect ds
    return a :: as

inductive Argument where
  | positional (value : Draft Expr) (span : Span)
  | keyword (name : String) (value : Draft Expr) (span : Span)

/-- The arguments of a call. Those by position come first, and no name is given
twice. -/
def arguments : List Argument → List Expr → List Keyword → Draft (List Expr × List Keyword)
  | [], args, keywords => .ok (args, keywords)
  | .positional value span :: rest, args, keywords =>
    if keywords.isEmpty then do
      let value ← value
      arguments rest (args ++ [value]) keywords
    else misused .positionalAfterKeyword span
  | .keyword name value span :: rest, args, keywords =>
    if keywords.any (·.arg = name) then misused (.keywordRepeated name) span
    else do
      let value ← value
      arguments rest args (keywords ++ [⟨name, value, span⟩])

/-- What follows a name in a chain. -/
inductive Suffix where
  | call (args : List Argument)
  | attr (name : String)
  | index (value : Draft Expr)

def extend (base : Expr) (suffix : Suffix) (span : Span) : Draft Expr :=
  let whole := base.span.merge span
  match suffix with
  | .call args => do
    let (args, keywords) ← arguments args [] []
    return .call base args keywords whole
  | .attr name => .ok (.field base name whole)
  | .index value => do
    let index ← value
    return .subscript base index whole

def chain (base : Expr) : List (Suffix × Span) → Draft Expr
  | [] => .ok base
  | (suffix, span) :: rest => do
    let next ← extend base suffix span
    chain next rest

/-- Only a field can be assigned to. -/
def checkTarget : Expr → Draft Unit
  | .field _ _ _ => .ok ()
  | target => misused (.assignTo target.shape) target.span

/-- `variable.field.append(value)`. -/
def appendStmt (target : Expr) (args : List Expr) (keywords : List Keyword) (span : Span) :
    Draft Stmt :=
  match target with
  | .field (.name _ _) _ _ =>
    match args, keywords with
    | [value], [] => .ok (.append target value span)
    | _, _ => misused (.appendArguments (args.length + keywords.length)) span
  | _ => misused .appendTarget target.span

/-- An expression as a statement. A call must call a name, but for the method that
appends to a field. -/
def exprStmt (value : Expr) (span : Span) : Draft Stmt :=
  match value with
  | .call (.name _ _) _ _ _ => .ok (.expr value span)
  | .call (.field target attr fieldSpan) args keywords callSpan =>
    if attr = "append" then appendStmt target args keywords span
    else misused (.callOn (Expr.field target attr fieldSpan).shape) callSpan
  | .call func _ _ callSpan => misused (.callOn func.shape) callSpan
  | _ => .ok (.expr value span)

def assignStmt (target value : Expr) (span : Span) : Draft Stmt := do
  checkTarget target
  return .assign target value span

def checkTargets : List Expr → Draft Unit
  | [] => .ok ()
  | target :: rest => do
    checkTarget target
    checkTargets rest

def tupleStmt (targets values : List Expr) (span : Span) : Draft Stmt := do
  checkTargets targets
  if targets.length = values.length then return .tupleAssign targets values span
  else misused (.tupleLengths values.length targets.length) span

end TaskDialogue.Syntax
