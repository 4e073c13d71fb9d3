import TaskDialogue.Number.Read
import TaskDialogue.Settings.Setting
import TaskDialogue.Text.Blank
import TaskDialogue.Text.Bytes
import TaskDialogue.Text.Hex

/-!
# Settings in object notation

```
#![enable(implicit_some)]
( // fields have names in a structure
  log: Log(level: "warn"),
  list: [1, 0x1F, 2.5, 'c', None, Some(true)],
  map: {"key": r#"raw "text""#}, /* and values in a map */
)
```

The name before a structure says nothing, nor does a name alone. A comma may follow the
last of several things. Parentheses after `Some` may be left out if the extension
`implicit_some` is enabled. Values are nested to a bounded depth.
-/
namespace TaskDialogue.Ron

/-- A value. Maps may have any keys. -/
inductive Value where
  | nothing
  | flag (b : Bool)
  | int (n : Int)
  | float (x : Double)
  | char (c : Char)
  | text (s : String)
  | wrapped (v : Value)
  | list (items : List Value)
  | map (entries : List (Value × Value))
deriving Inhabited

/-! ### Blanks and words -/

def isSpace (c : Char) : Bool := c == ' ' || c == '\n' || c == '\t' || c == '\r'

/-- The rest after a comment of `level` nested ones, whose opening was read. -/
def blockComment? : (level : Nat) → List Char → Option (List Char)
  | 0, cs => some cs
  | _ + 1, [] => none
  | level + 1, '/' :: '*' :: rest => blockComment? (level + 2) rest
  | level + 1, '*' :: '/' :: rest => blockComment? level rest
  | level + 1, _ :: rest => blockComment? (level + 1) rest
termination_by _ cs => cs.length

/-- Pass over blanks and comments. Each takes a character at least. -/
def skipWithin? : (fuel : Nat) → List Char → Option (List Char)
  | 0, _ => none
  | fuel + 1, cs =>
    match cs.dropWhile isSpace with
    | '/' :: '/' :: rest => skipWithin? fuel (rest.dropWhile (· ≠ '\n'))
    | '/' :: '*' :: rest => (blockComment? 1 rest).bind (skipWithin? fuel)
    | '/' :: _ => none
    | rest => some rest

def skip? (cs : List Char) : Option (List Char) := skipWithin? (cs.length + 1) cs

def startsName (c : Char) : Bool := c.isAlpha || c == '_'

def isNameChar (c : Char) : Bool := c.isAlphanum || c == '_'

/-- The characters that names with a mark may hold too. -/
def isMarkedChar (c : Char) : Bool := isNameChar c || c == '.' || c == '+' || c == '-'

/-- The rest after a word that no longer name begins with. -/
def word? (w : String) (cs : List Char) : Option (List Char) :=
  (Text.dropPrefix? w.toList cs).filter fun rest => !rest.head?.any isNameChar

/-- A name, or any characters of names after the mark `r#`. -/
def name? (cs : List Char) : Option (String × List Char) :=
  match cs with
  | [] | 'r' :: '"' :: _ | ['r'] => none
  | 'r' :: '#' :: rest =>
    match rest.span isMarkedChar with
    | ([], _) => none
    | (name, rest) => some (String.ofList name, rest)
  | c :: _ =>
    let (name, rest) := cs.span isNameChar
    if startsName c && !rest.head?.any isMarkedChar then some (String.ofList name, rest) else none

/-! ### Texts -/

/-- The character of an escape, after its backslash. -/
def escape? : List Char → Option (Char × List Char)
  | 'n' :: rest => some ('\n', rest)
  | 'r' :: rest => some ('\r', rest)
  | 't' :: rest => some ('\t', rest)
  | '0' :: rest => some ('\x00', rest)
  | 'x' :: a :: b :: rest => (Text.numbered? [a, b]).map (·, rest)
  | 'u' :: '{' :: rest =>
    match rest.span fun c => (Text.hexDigit? c).isSome with
    | (digits, '}' :: rest) =>
      if 6 < digits.length then none else (Text.numbered? digits).map (·, rest)
    | _ => none
  | c :: rest => if c = '\'' || c = '"' || c = '\\' then some (c, rest) else none
  | [] => none

/-- A text in quotes, after the first of them. Each step takes a character at least. -/
def quoted? : (fuel : Nat) → List Char → Option (List Char × List Char)
  | 0, _ => none
  | fuel + 1, cs =>
    match cs with
    | [] => none
    | '"' :: rest => some ([], rest)
    | '\\' :: rest => do
      let (c, rest) ← escape? rest
      let (cs, rest) ← quoted? fuel rest
      return (c :: cs, rest)
    | c :: rest => (quoted? fuel rest).map fun r => (c :: r.1, r.2)

def until? (ending : List Char) : List Char → Option (List Char × List Char)
  | [] => none
  | c :: rest =>
    match Text.dropPrefix? ending (c :: rest) with
    | some rest => some ([], rest)
    | none => (until? ending rest).map fun r => (c :: r.1, r.2)

/-- A text without escapes, after its mark. It ends at a quote with as many hashes as it
starts with. -/
def raw? (cs : List Char) : Option (List Char × List Char) :=
  match cs.span (· == '#') with
  | (hashes, '"' :: rest) => until? ('"' :: hashes) rest
  | _ => none

def text? (cs : List Char) : Option (Value × List Char) :=
  let read := match cs with
    | '"' :: rest => quoted? (rest.length + 1) rest
    | 'r' :: rest => raw? rest
    | _ => none
  read.map fun r => (.text (String.ofList r.1), r.2)

/-- A character, after its first quote. -/
def char? : List Char → Option (Value × List Char)
  | '\\' :: rest =>
    match escape? rest with
    | some (c, '\'' :: rest) => some (.char c, rest)
    | _ => none
  | '\'' :: _ => none
  | c :: '\'' :: rest => some (.char c, rest)
  | _ => none

/-! ### Numbers -/

def isFloatChar (c : Char) : Bool :=
  c.isDigit || c == 'e' || c == 'E' || c == '.' || c == '+' || c == '-' || c == '_'

def isWholeChar (c : Char) : Bool := (Text.hexDigit? c).isSome || c == '_'

/-- A number with a fraction or an exponent, or one of the words for numbers that have no
digits. Underscores are not admitted. -/
def float? (cs : List Char) : Option (Value × List Char) :=
  let special := ["inf", "+inf", "-inf", "NaN", "+NaN", "-NaN"].findSome? fun w =>
    (word? w cs).bind fun rest => (Number.double? w.toList).map (Value.float ·, rest)
  special.or <|
    let (number, rest) := cs.span isFloatChar
    (Number.double? number).map (.float ·, rest)

/-- A whole number in base ten, or in the base that a letter after a zero tells. Digits may
have underscores after the first one. -/
def whole? (negative : Bool) (cs : List Char) : Option (Int × List Char) := do
  let (base, cs) := match cs with
    | '0' :: 'x' :: rest => (16, rest)
    | '0' :: 'b' :: rest => (2, rest)
    | '0' :: 'o' :: rest => (8, rest)
    | cs => (10, cs)
  let (digits, rest) := cs.span isWholeChar
  if digits.head? = some '_' then none else
  let n : Int ← Text.readBase? base (digits.filter (· ≠ '_'))
  return (if negative then -n else n, rest)

/-- Whether a number has a fraction: it goes on after what could be its digits. -/
def hasFraction (cs : List Char) : Bool :=
  let digits := match cs with
    | '+' :: rest | '-' :: rest => rest
    | cs => cs
  (digits.takeWhile isWholeChar).length < (digits.takeWhile isFloatChar).length

/-- A number. A whole one that is too great for a word is rounded. -/
def number? (cs : List Char) : Option (Value × List Char) :=
  let whole : Option (Value × List Char) := do
    if hasFraction cs then none else
    match cs with
    | '+' :: rest | '-' :: rest =>
      let (n, rest) ← whole? (cs.head? = some '-') rest
      if Number.fitsInt64 n then some (.int n, rest) else none
    | _ =>
      let (n, rest) ← whole? false cs
      if Number.fitsInt64 n then some (.int n, rest)
      else if n < UInt64.size then some (.float (.ofInt n), rest)
      else none
  whole.or (float? cs)

/-! ### Values -/

/-- Whether the things after an opening parenthesis have names. -/
def hasFields (cs : List Char) : Option Bool := do
  match name? cs with
  | none => return false
  | some (_, rest) => return (← skip? rest).head? = some ':'

/-- Whether one more thing comes before the end of several, where `comma` says that a
comma or the start came last. -/
def ahead? (ends : Char) (comma : Bool) (cs : List Char) : Option (Bool × List Char) := do
  let cs ← skip? cs
  let c ← cs.head?
  if c = ends then return (false, cs.drop 1)
  else if comma then return (true, cs)
  else none

def comma? (cs : List Char) : Option (Bool × List Char) := do
  match ← skip? cs with
  | ',' :: rest => return (true, ← skip? rest)
  | rest => return (false, rest)

mutual

/-- A value, where `bare` says that parentheses after `Some` may be left out. Every step
takes a character off the text or goes from a thing to its value, so twice the length is
fuel enough. -/
def value? (bare : Bool) : (fuel : Nat) → List Char → Option (Value × List Char)
  | 0, _ => none
  | fuel + 1, cs =>
    match word? "true" cs, word? "false" cs, word? "Some" cs, word? "None" cs with
    | some rest, _, _, _ => some (.flag true, rest)
    | _, some rest, _, _ => some (.flag false, rest)
    | _, _, some rest, _ => do
      match ← skip? rest with
      | '(' :: rest =>
        let (v, rest) ← value? bare fuel (← skip? rest)
        let (_, rest) ← comma? rest
        let ')' :: rest := rest | none
        return (.wrapped v, rest)
      | rest =>
        if !bare then none else
        let (v, rest) ← value? bare fuel rest
        return (.wrapped v, rest)
    | _, _, _, some rest => some (.nothing, rest)
    | none, none, none, none =>
      match cs with
      | '(' :: ')' :: rest => some (.nothing, rest)
      | _ =>
        match (word? "inf" cs).or (word? "NaN" cs), name? cs with
        | some _, _ => float? cs
        | none, some (_, rest) => do
          match ← skip? rest with
          | '(' :: rest => parenthesised? bare fuel rest
          | rest => return (.nothing, rest)
        | none, none =>
          match cs with
          | '(' :: rest => parenthesised? bare fuel rest
          | '[' :: rest => (items? bare fuel ']' true rest).map fun r => (.list r.1, r.2)
          | '{' :: rest => (entries? bare fuel true rest).map fun r => (.map r.1, r.2)
          | '.' :: _ => float? cs
          | '"' :: _ | 'r' :: _ => text? cs
          | '\'' :: rest => char? rest
          | c :: _ => if c.isDigit || c == '+' || c == '-' then number? cs else none
          | [] => none

/-- What stands in parentheses, after the first of them: fields, or a list. -/
def parenthesised? (bare : Bool) : (fuel : Nat) → List Char → Option (Value × List Char)
  | 0, _ => none
  | fuel + 1, cs => do
    let cs ← skip? cs
    if ← hasFields cs then (fields? bare fuel true cs).map fun r => (.map r.1, r.2)
    else (items? bare fuel ')' true cs).map fun r => (.list r.1, r.2)

def items? (bare : Bool) : (fuel : Nat) → (ends : Char) → (comma : Bool) → List Char →
    Option (List Value × List Char)
  | 0, _, _, _ => none
  | fuel + 1, ends, comma, cs => do
    let (more, cs) ← ahead? ends comma cs
    if !more then return ([], cs)
    let (item, rest) ← value? bare fuel cs
    let (comma, rest) ← comma? rest
    let (items, rest) ← items? bare fuel ends comma rest
    return (item :: items, rest)

def entries? (bare : Bool) : (fuel : Nat) → (comma : Bool) → List Char →
    Option (List (Value × Value) × List Char)
  | 0, _, _ => none
  | fuel + 1, comma, cs => do
    let (more, cs) ← ahead? '\x7d' comma cs
    if !more then return ([], cs)
    let (key, rest) ← value? bare fuel cs
    let (value, comma, rest) ← colonValue? bare fuel rest
    let (entries, rest) ← entries? bare fuel comma rest
    return ((key, value) :: entries, rest)

/-- The fields of a structure, up to its end. -/
def fields? (bare : Bool) : (fuel : Nat) → (comma : Bool) → List Char →
    Option (List (Value × Value) × List Char)
  | 0, _, _ => none
  | fuel + 1, comma, cs => do
    let (more, cs) ← ahead? ')' comma cs
    if !more then return ([], cs)
    let (key, rest) ← name? cs
    let (value, comma, rest) ← colonValue? bare fuel rest
    let (fields, rest) ← fields? bare fuel comma rest
    return ((.text key, value) :: fields, rest)

/-- A value after a colon, and whether a comma follows it. -/
def colonValue? (bare : Bool) : (fuel : Nat) → List Char → Option (Value × Bool × List Char)
  | 0, _ => none
  | fuel + 1, cs => do
    let ':' :: rest ← skip? cs | none
    let (value, rest) ← value? bare fuel (← skip? rest)
    let (comma, rest) ← comma? rest
    return (value, comma, rest)

end

/-! ### Documents -/

/-- The rest after words with blanks between them. -/
def words? : List String → List Char → Option (List Char)
  | [], cs => some cs
  | w :: ws, cs => (Text.dropPrefix? w.toList cs).bind fun rest => (skip? rest).bind (words? ws)

/-- The names of extensions, after an opening parenthesis. -/
def extensionNames? : (fuel : Nat) → List Char → Option (List String × List Char)
  | 0, _ => none
  | fuel + 1, cs => do
    let (name, rest) ← name? cs
    if name ∉ ["unwrap_newtypes", "implicit_some", "unwrap_variant_newtypes"] then none else
    let (comma, rest) ← comma? rest
    if !rest.head?.any isNameChar then return ([name], rest)
    if !comma then none else
    let (names, rest) ← extensionNames? fuel rest
    return (name :: names, rest)

def extensions? : (fuel : Nat) → List Char → Option (List String × List Char)
  | 0, _ => none
  | fuel + 1, cs => do
    let cs ← skip? cs
    if cs.head? ≠ some '#' then return ([], cs)
    let rest ← words? ["#", "!", "[", "enable", "("] cs
    let (names, rest) ← extensionNames? (rest.length + 1) rest
    let (more, rest) ← extensions? fuel (← words? [")", "]"] (← skip? rest))
    return (names ++ more, rest)

def maxDepth : Nat := 128

mutual

/-- How deep a value is nested. Lists and maps are one level, and what they hold is
another. -/
def Value.depth : Value → Nat
  | .wrapped v => v.depth + 1
  | .list items => itemsDepth items + 1
  | .map entries => entriesDepth entries + 1
  | _ => 0

def itemsDepth : List Value → Nat
  | [] => 0
  | v :: rest => max (v.depth + 1) (itemsDepth rest)

def entriesDepth : List (Value × Value) → Nat
  | [] => 0
  | entry :: rest => max (entryDepth entry + 1) (entriesDepth rest)

def entryDepth : Value × Value → Nat
  | (key, v) => max key.depth v.depth

end

mutual

/-- The setting that a value stands for. Only texts and characters are names. -/
def Value.setting? : Value → Option Setting
  | .nothing => some .nothing
  | .flag b => some (.flag b)
  | .int n => some (.int n)
  | .float x => some (.float x)
  | .char c => some (.text (String.singleton c))
  | .text s => some (.text s)
  | .wrapped v => v.setting?
  | .list items => (settings? items).map .list
  | .map entries => (tableOf? [] entries).map .table

def settings? : List Value → Option (List Setting)
  | [] => some []
  | v :: rest => do return (← v.setting?) :: (← settings? rest)

def tableOf? (before : List (String × Setting)) : List (Value × Value) →
    Option (List (String × Setting))
  | [] => some before
  | entry :: rest => do
    let (name, value) ← entryOf? entry
    tableOf? (Setting.insert name value before) rest

def entryOf? : Value × Value → Option (String × Setting)
  | (.text name, v) => v.setting?.map (name, ·)
  | (.char c, v) => v.setting?.map (String.singleton c, ·)
  | _ => none

end

def parse? (text : String) : Option (List (String × Setting)) := do
  let (extensions, cs) ← extensions? (text.length + 1) text.toList
  let (value, rest) ← value? (extensions.contains "implicit_some") (2 * cs.length + 2) cs
  if maxDepth < value.depth then none else
  match ← skip? rest, ← value.setting? with
  | [], .table entries => return entries
  | _, _ => none

end TaskDialogue.Ron
