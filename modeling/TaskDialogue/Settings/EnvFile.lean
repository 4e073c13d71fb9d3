import TaskDialogue.Text.Alphanumeric
import TaskDialogue.Text.Blank

/-!
# Files of environment variables

```
# comment
export NAME=value
OTHER='with $NAME as it stands' # comment
THIRD="with ${NAME} put in"
```

A value ends with its line unless a quote or a backslash keeps it open. Lines are taken
in order up to the first one that cannot be read. A variable that is set already keeps
its value.
-/
namespace TaskDialogue

abbrev Environment := List (String × String)

namespace Environment

def find? (name : String) : Environment → Option String
  | [] => none
  | (k, v) :: rest => if k = name then some v else find? name rest

end Environment

namespace EnvFile

/-- What an entry waits for at a place of its text. -/
inductive Mode where
  | plain
  | blank
  | escape
  | weak
  | weakEscape
  | strong
  | strongEscape
deriving DecidableEq, Repr

def Mode.next (m : Mode) (c : Char) : Mode :=
  let opened : Mode :=
    match c with
    | '\\' => .escape
    | '"' => .weak
    | '\'' => .strong
    | _ => .plain
  match m with
  | .blank => opened
  | .plain => if Text.isBlank c && c ≠ '\n' && c ≠ '\r' then .blank else opened
  | .escape => .plain
  | .weak => if c = '\\' then .weakEscape else if c = '"' then .plain else .weak
  | .weakEscape => .weak
  | .strong => if c = '\\' then .strongEscape else if c = '\'' then .plain else .strong
  | .strongEscape => .strong

/-- The mode after a line, and the line up to a comment in it. A comment follows a
blank. -/
def scan : Mode → List Char → Mode × Option (List Char)
  | m, [] => (m, none)
  | m, c :: rest =>
    if m = .blank && c = '#' then (m, some [])
    else
      let (last, cut) := scan (m.next c) rest
      (last, cut.map (c :: ·))

/-- A line without its end. -/
def chomp (line : List Char) : List Char :=
  match line.reverse with
  | '\n' :: '\r' :: rest => rest.reverse
  | '\n' :: rest => rest.reverse
  | _ => line

/-- Lines joined to entries; `none` is an entry that the text breaks off. -/
def entries : (pending : List Char) → Mode → List (List Char) → List (Option (List Char))
  | _, m, [] => if m = .plain then [] else [none]
  | pending, m, line :: rest =>
    let text := pending ++ line
    if (Text.trimStart text).head? = some '#' then some [] :: entries [] .plain rest
    else
      match scan m line with
      | (_, some cut) => some (pending ++ cut) :: entries [] .plain rest
      | (last, none) =>
        if last = .plain then some (chomp text) :: entries [] .plain rest
        else entries text last rest

def linesWithEnds (cs : List Char) : List (List Char) :=
  let parts := cs.splitOn '\n'
  let whole := parts.dropLast.map (· ++ ['\n'])
  match parts.getLast? with
  | none | some [] => whole
  | some last => whole ++ [last]

/-- Where in a value a place is. Names are backwards here. -/
inductive Reading where
  | text
  | strong
  /-- A name after a dollar sign, of letters and digits. -/
  | name (rest : List Char)
  /-- A name in braces, of any characters. -/
  | braced (rest : List Char)
  /-- Only blanks and a comment may follow. -/
  | done
deriving DecidableEq, Repr

def escaped? (c : Char) : Option Char :=
  if c = 'n' then some '\n' else if "\\'\"$ ".toList.contains c then some c else none

/-- The value that a text writes, where `look` gives the values of variables. `weak` says
that a double quote is open, and `out` is the value so far, backwards. -/
def value? (look : List Char → List Char) :
    (weak : Bool) → Reading → (out : List Char) → List Char → Option (List Char)
  | weak, r, out, [] =>
    match r with
    | .braced _ | .strong => none
    | .name name => if weak then none else some (((look name.reverse).reverse ++ out).reverse)
    | .text | .done => if weak then none else some out.reverse
  | weak, .done, out, c :: rest =>
    if c = ' ' || c = '\t' then value? look weak .done out rest
    else if c = '#' then (if weak then none else some out.reverse)
    else none
  | weak, .strong, out, c :: rest =>
    if c = '\'' then value? look weak .text out rest else value? look weak .strong (c :: out) rest
  | weak, .name name, out, c :: rest =>
    if Text.isAlphanumeric c then value? look weak (.name (c :: name)) out rest
    else if c = '{' && name.isEmpty then value? look weak (.braced []) out rest
    else
      let out := (look name.reverse).reverse ++ out
      if c = '$' then value? look weak (.name []) out rest
      else value? look weak .text (c :: out) rest
  | weak, .braced name, out, c :: rest =>
    if c = '\x7d' then value? look weak .text ((look name.reverse).reverse ++ out) rest
    else value? look weak (.braced (c :: name)) out rest
  | weak, .text, out, '\\' :: rest =>
    match rest with
    | [] => if weak then none else some out.reverse
    | c :: rest => (escaped? c).bind fun x => value? look weak .text (x :: out) rest
  | weak, .text, out, c :: rest =>
    if c = '$' then value? look weak (.name []) out rest
    else if c = '"' then value? look (!weak) .text out rest
    else if weak then value? look weak .text (c :: out) rest
    else if c = '\'' then value? look weak .strong out rest
    else if c = ' ' || c = '\t' then value? look weak .done out rest
    else value? look weak .text (c :: out) rest

def name? (cs : List Char) : Option (List Char × List Char) :=
  match cs with
  | c :: _ =>
    if c.isAlpha || c == '_' then some (cs.span fun c => c.isAlphanum || c == '_' || c == '.')
    else none
  | [] => none

def afterEquals? : List Char → Option (List Char)
  | '=' :: rest => some rest
  | _ => none

/-- The variable that an entry sets. The word `export` may stand before it. -/
def assignment? (cs : List Char) : Option (List Char × List Char) := do
  let (name, rest) ← name? cs
  match afterEquals? (Text.trimStart rest) with
  | some rest => some (name, Text.trimStart rest)
  | none =>
    if name ≠ "export".toList then none else
    let (name, rest) ← name? (Text.trimStart rest)
    let rest ← afterEquals? (Text.trimStart rest)
    some (name, Text.trimStart rest)

/-- Set the variables of entries that are not set yet, up to the first entry that cannot
be read. `known` holds the values of all variables that were read, also of those that
were set before. -/
def setAll : (known : Environment) → List (Option (List Char)) → Environment → Environment
  | _, [], env => env
  | _, none :: _, env => env
  | known, some entry :: rest, env =>
    let text := Text.trim entry
    if text.isEmpty || text.head? = some '#' then setAll known rest env
    else
      match assignment? text with
      | none => env
      | some (name, text) =>
        let look (name : List Char) : List Char :=
          let name := String.ofList name
          (((env.find? name).or (known.find? name)).getD "").toList
        let read :=
          if text.isEmpty || text.head? = some '#' then some []
          else value? look false .text [] text
        match read with
        | none => env
        | some value =>
          let pair := (String.ofList name, String.ofList value)
          setAll (pair :: known) rest (if (env.find? pair.1).isSome then env else env ++ [pair])

/-- The environment with the variables of a file added. -/
def load (text : String) (env : Environment) : Environment :=
  let cs := match text.toList with
    | '\uFEFF' :: rest => rest
    | cs => cs
  setAll [] (entries [] .plain (linesWithEnds cs)) env

end EnvFile

end TaskDialogue
