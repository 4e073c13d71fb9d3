import TaskDialogue.Settings.Yaml.Place
import TaskDialogue.Text.Hex

/-!
# Tags and names in YAML text

A tag is a handle such as `!!` with a word after it, or a whole address in angle brackets.
Characters of tags may be written by the octets of their number. The first octet tells how
many there are, as in UTF-8, but all of their bits count.
-/
namespace TaskDialogue.Yaml

/-- The characters of handles and of the names of directives. -/
def isWordChar (c : Char) : Bool := c.isAlphanum || c == '_' || c == '-'

def isAddressChar (c : Char) : Bool :=
  c.isAlphanum || "-#;/?:@&=+$,_.!~*'()[]%".toList.contains c

def isTagChar (c : Char) : Bool := isAddressChar c && !isFlow c && c ≠ '!'

/-- The characters of the names of nodes. -/
def isAnchorChar (c : Char) : Bool := !isBlank c && !isBreak c && !isFlow c && c ≠ '\uFEFF'

/-- An octet that is written by its number. -/
def octet? : List Char → Option (Nat × List Char)
  | '%' :: a :: b :: rest => (Text.readBase? 16 [a, b]).map (·, rest)
  | _ => none

/-- The octets after the first one of a character, put after what came before. -/
def moreOctets? : (count code : Nat) → List Char → Option (Nat × List Char)
  | 0, code, cs => some (code, cs)
  | count + 1, code, cs => do
    let (n, rest) ← octet? cs
    if n < 0x80 || 0xC0 ≤ n then none else moreOctets? count (code * 0x100 + n) rest

/-- A character that is written by its octets, and how many characters that takes. -/
def octets? (cs : List Char) : Option (Char × Nat) := do
  let (n, rest) ← octet? cs
  let more ←
    if n < 0x80 then some 0
    else if 0xC0 ≤ n && n < 0xE0 then some 1
    else if 0xE0 ≤ n && n < 0xF0 then some 2
    else if 0xF0 ≤ n && n < 0xF8 then some 3
    else none
  let (code, _) ← moreOctets? more n rest
  return (← Text.charOf? code, 3 * (more + 1))

/-- Read characters of a class, also those that are written by their octets. -/
def address? (admits : Char → Bool) : (fuel : Nat) → Place → Option (List Char × Place)
  | 0, _ => none
  | fuel + 1, p =>
    match p.rest with
    | [] => some ([], p)
    | c :: _ =>
      if !admits c then some ([], p)
      else do
        let (c, n) ← if c = '%' then octets? p.rest else some (c, 1)
        (address? admits fuel (p.skip n)).map fun r => (c :: r.1, r.2)

/-- A handle: a word between exclamation marks, the second of which may be missing. -/
def handle? (p : Place) : Option (List Char × Place) :=
  match p.rest with
  | '!' :: rest =>
    let word := rest.takeWhile isWordChar
    let p := p.skip (word.length + 1)
    if p.rest.head? = some '!' then some ('!' :: word ++ ['!'], p.skip 1) else some ('!' :: word, p)
  | _ => none

/-- Whether a handle stands between two exclamation marks. -/
def isNamed (handle : List Char) : Bool := 2 ≤ handle.length && handle.getLast? = some '!'

/-- A tag: its handle and what comes after it. -/
def tag? (flow : Bool) (p : Place) : Option ((String × String) × Place) := do
  let (handle, suffix, p) ←
    if (p.rest.drop 1).head? = some '<' then do
      let (address, p) ← address? isAddressChar (p.rest.length + 1) (p.skip 2)
      if p.rest.head? = some '>' then some ([], address, p.skip 1) else none
    else do
      let (handle, p) ← handle? p
      let (word, p) ← address? isTagChar (p.rest.length + 1) p
      if isNamed handle then some (handle, word, p)
      else
        let suffix := handle.drop 1 ++ word
        if suffix.isEmpty then some ([], ['!'], p) else some (['!'], suffix, p)
  if isNamed handle && suffix.isEmpty then none
  else if endsWord p.rest || (flow && p.rest.head?.any isFlow) then
    return ((String.ofList handle, String.ofList suffix), p)
  else none

def anchor? (p : Place) : Option (String × Place) :=
  let p := p.skip 1
  match p.rest.takeWhile isAnchorChar with
  | [] => none
  | name => some (String.ofList name, p.skip name.length)

/-! ### Directives -/

/-- What a document says before its start. -/
inductive Directive where
  | version
  /-- A handle stands for the start of an address. -/
  | handle (name start : String)
deriving DecidableEq, Repr

def versionPart? (p : Place) : Option Place :=
  let digits := p.rest.takeWhile Char.isDigit
  if digits.isEmpty || 9 < digits.length then none else some (p.skip digits.length)

def afterBlanks (p : Place) : Place := p.skipBlanks (p.rest.takeWhile isBlank).length

/-- What a directive says, after its name. Directives that are not known say nothing. -/
def directiveBody? (name : List Char) (p : Place) : Option (Directive × Place) :=
  match String.ofList name with
  | "YAML" => do
    let p ← versionPart? (afterBlanks p)
    let '.' :: _ := p.rest | none
    return (.version, ← versionPart? (p.skip 1))
  | "TAG" => do
    let (handle, p) ← handle? (afterBlanks p)
    if handle ≠ ['!'] && !isNamed handle then none else
    let p := afterBlanks p
    let first ← p.rest.head?
    if first ≠ '!' && !isTagChar first then none else
    let (start, n) ← if first = '%' then octets? p.rest else some (first, 1)
    let p := p.skip n
    let (more, p) ← address? isAddressChar (p.rest.length + 1) p
    if endsWord p.rest then
      return (.handle (String.ofList handle) (String.ofList (start :: more)), p)
    else none
  | _ => some (.handle "" "", p.skipLine)

def directive? (p : Place) : Option (Directive × Place) := do
  let p := p.skip 1
  let name := p.rest.takeWhile isWordChar
  let p := p.skip name.length
  if name.isEmpty || !endsWord p.rest then none else
  let (directive, p) ← directiveBody? name p
  let (_, p) ← p.skipComment? true
  if endsLine p.rest then return (directive, p.skipBreak) else none

end TaskDialogue.Yaml
