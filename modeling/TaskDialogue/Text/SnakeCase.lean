/-!
# Snake case

A name in camel case is written in lower case with an underscore before each
word. A capital starts a word after a small letter or a digit, and after another
capital when a small letter follows: `HTTPServer` becomes `http_server`. Only
ASCII letters have a case here.
-/
namespace TaskDialogue.Text

/-- Whether the capital after `before` starts a word, given what follows it. -/
def startsWord (before : Char) (next : Option Char) : Bool :=
  before.isLower || before.isDigit || (before.isUpper && next.any Char.isLower)

/-- Snake case of the characters that follow `before`. -/
def snakeAfter (before : Char) : List Char → List Char
  | [] => []
  | c :: rest =>
    if c.isUpper && startsWord before rest.head? then '_' :: c.toLower :: snakeAfter c rest
    else c.toLower :: snakeAfter c rest

def snakeChars : List Char → List Char
  | [] => []
  | c :: rest => c.toLower :: snakeAfter c rest

/-- The name in snake case: `SetTimer` gives `set_timer`. -/
def snakeCase (name : String) : String := String.ofList (snakeChars name.toList)

end TaskDialogue.Text
