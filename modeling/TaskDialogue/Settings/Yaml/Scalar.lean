import TaskDialogue.Settings.Yaml.Place
import TaskDialogue.Text.Hex

/-!
# Texts in YAML

A text stands without quotes, in quotes of either kind, or as a block of lines after `|` or
`>`. Where a text goes over several lines, a line end within it becomes a space, and of
several line ends all but the first stay; blocks after `|` keep all of them. The readers
get the column `indent` that the text must not go back to, and build the text backwards.
-/
namespace TaskDialogue.Yaml

/-- A text that goes on in another line, where `ends` empty lines came in between. -/
def fold (out : List Char) (ends : Nat) : List Char :=
  if ends = 0 then ' ' :: out else List.replicate ends '\n' ++ out

/-! ### Quotes -/

/-- The character that a letter after a backslash stands for. -/
def escaped? : Char → Option Char
  | '0' => some '\x00'
  | 'a' => some '\x07'
  | 'b' => some '\x08'
  | 't' | '\t' => some '\t'
  | 'n' => some '\n'
  | 'v' => some '\x0b'
  | 'f' => some '\x0c'
  | 'r' => some '\r'
  | 'e' => some '\x1b'
  | ' ' => some ' '
  | '"' => some '"'
  | '/' => some '/'
  | '\\' => some '\\'
  | 'N' => some '\u0085'
  | '_' => some '\u00A0'
  | 'L' => some '\u2028'
  | 'P' => some '\u2029'
  | _ => none

/-- The character of an escape after its backslash, and how many characters it takes. -/
def escape? : List Char → Option (Char × Nat)
  | [] => none
  | c :: rest =>
    let numbered (digits : Nat) : Option (Char × Nat) :=
      if rest.length < digits then none
      else (Text.numbered? (rest.take digits)).map (·, digits + 1)
    match c with
    | 'x' => numbered 2
    | 'u' => numbered 4
    | 'U' => numbered 8
    | c => (escaped? c).map (·, 1)

/-- Read up to a blank, a line end or the closing quote. The last part says whether a
backslash took out a line end. -/
def quotedWord? (single : Bool) : (fuel : Nat) → (out : List Char) → Place →
    Option (List Char × Bool × Place)
  | 0, _, _ => none
  | fuel + 1, out, p =>
    if endsWord p.rest then some (out, false, p)
    else
      match single, p.rest with
      | true, '\'' :: '\'' :: _ => quotedWord? single fuel ('\'' :: out) (p.skip 2)
      | true, '\'' :: _ | false, '"' :: _ => some (out, false, p)
      | false, '\\' :: rest =>
        if rest.head?.any isBreak then some (out, true, (p.skip 1).skipBreak)
        else do
          let (c, n) ← escape? rest
          quotedWord? single fuel (c :: out) (p.skip (n + 1))
      | _, c :: _ => quotedWord? single fuel (c :: out) (p.skip 1)
      | _, [] => none

/-- The gap between two words in quotes. -/
structure Gap where
  /-- The blanks before a line end, backwards. -/
  blanks : List Char
  /-- Whether the line ended, be it after a backslash. -/
  ended : Bool
  /-- Whether a line end is to be written. -/
  first : Bool
  /-- How many further lines ended. -/
  more : Nat

/-- Read blanks and line ends. A line must not be indented by tabs. -/
def quotedGap? (indent : Int) : (fuel : Nat) → Gap → Place → Option (Gap × Place)
  | 0, _, _ => none
  | fuel + 1, g, p =>
    match p.rest with
    | [] => some (g, p)
    | c :: _ =>
      if isBlank c then
        if !g.ended then quotedGap? indent fuel { g with blanks := c :: g.blanks } (p.skipBlanks 1)
        else if c = '\t' && p.col < indent then none
        else quotedGap? indent fuel g (p.skipBlanks 1)
      else if isBreak c then
        let g : Gap := if g.ended then { g with more := g.more + 1 } else ⟨[], true, true, 0⟩
        quotedGap? indent fuel g p.skipBreak
      else some (g, p)

/-- A text with a gap after it. -/
def Gap.close (g : Gap) (out : List Char) : List Char :=
  if !g.ended then g.blanks ++ out
  else if g.first then fold out g.more
  else List.replicate g.more '\n' ++ out

/-- Read a text in quotes, up to its closing quote. -/
def quotedLines? (single : Bool) (indent : Int) : (fuel : Nat) → (out : List Char) → Place →
    Option (List Char × Place)
  | 0, _, _ => none
  | fuel + 1, out, p => do
    if p.startsDocument || p.endsDocument || p.rest.isEmpty || p.col < indent then none else
    let (out, ended, p) ← quotedWord? single (p.rest.length + 1) out p
    if p.rest.head? = some (if single then '\'' else '"') then return (out, p.skip 1) else
    let (gap, p) ← quotedGap? indent (p.rest.length + 1) ⟨[], ended, false, 0⟩ p
    quotedLines? single indent fuel (gap.close out) p

/-- A text in quotes. Within collections in brackets a comma or a closing bracket may follow
it in its line; a colon may follow it if it does not go over several lines there. -/
def quoted? (single : Bool) (indent : Int) (flow : Bool) (p : Place) : Option (String × Place) := do
  let (out, last) ← quotedLines? single indent (p.rest.length + 1) [] (p.skip 1)
  let (_, after) ← last.skipComment? true
  let admitted := match after.rest with
    | [] => true
    | c :: _ =>
      isBreak c || (flow && (c == ',' || c == '\x7d' || c == ']')) ||
        (c == ':' && (flow || p.line == after.line))
  if admitted then return (String.ofList out.reverse, after) else none

/-! ### Blocks -/

/-- What becomes of the line ends after the last line of a block. -/
inductive Chomping where
  | strip
  | clip
  | keep
deriving DecidableEq, Repr

def chomping? : Char → Option Chomping
  | '+' => some .keep
  | '-' => some .strip
  | _ => none

/-- The marks after the start of a block: what becomes of its last line ends, and how far it
is indented, in either order. -/
def blockMarks? (p : Place) : Option (Chomping × Nat × Place) :=
  let depth? (c : Char) : Option Nat :=
    if c.isDigit then some (c.toNat - '0'.toNat) else none
  match p.rest with
  | [] => some (.clip, 0, p)
  | a :: rest =>
    match chomping? a, depth? a with
    | some chomping, _ =>
      match rest.head?.bind depth? with
      | some 0 => none
      | some depth => some (chomping, depth, p.skip 2)
      | none => some (chomping, 0, p.skip 1)
    | none, some 0 => none
    | none, some depth =>
      match rest.head?.bind chomping? with
      | some chomping => some (chomping, depth, p.skip 2)
      | none => some (.clip, depth, p.skip 1)
    | none, none => some (.clip, 0, p)

/-- Pass over empty lines and over the blanks before a line of a block. The number of empty
lines is given back. -/
def skipIndent (indent : Nat) : (fuel : Nat) → (ends : Nat) → Place → Nat × Place
  | 0, ends, p => (ends, p)
  | fuel + 1, ends, p =>
    let blanks := p.rest.takeWhile (· == ' ')
    let p := p.skipBlanks (min blanks.length (indent - p.col))
    if p.rest.head?.any isBreak then skipIndent indent fuel (ends + 1) p.skipBreak else (ends, p)

/-- Pass over empty lines and over the blanks before the first line of a block, which tell
how far it is indented. -/
def skipFirstIndent : (fuel : Nat) → (indent ends : Nat) → Place → Nat × Nat × Place
  | 0, indent, ends, p => (indent, ends, p)
  | fuel + 1, indent, ends, p =>
    let p := p.skipBlanks (p.rest.takeWhile (· == ' ')).length
    let indent := max indent p.col
    if p.rest.head?.any isBreak then skipFirstIndent fuel indent (ends + 1) p.skipBreak
    else (indent, ends, p)

/-- The lines of a block so far: the text, whether a line end comes after it, how many more
lines ended, and whether the last line started with a blank. -/
structure Block where
  out : List Char
  ended : Bool
  more : Nat
  blank : Bool

/-- The block before another line. Line ends next to lines that start with a blank stay. -/
def Block.next (b : Block) (literal blank : Bool) : List Char :=
  if !literal && b.ended && !b.blank && !blank then fold b.out b.more
  else List.replicate (b.more + if b.ended then 1 else 0) '\n' ++ b.out

def blockLines (literal : Bool) (indent : Nat) : (fuel : Nat) → Block → Place → Block × Place
  | 0, b, p => (b, p)
  | fuel + 1, b, p =>
    if p.col ≠ indent || p.rest.isEmpty || (indent == 0 && p.endsDocument) then (b, p)
    else
      let blank := p.rest.head?.any isBlank
      let line := p.rest.takeWhile (!isBreak ·)
      let out := line.reverse ++ b.next literal blank
      let p := p.skip line.length
      if p.rest.isEmpty then (⟨out, false, 0, blank⟩, p)
      else
        let (more, p) := skipIndent indent (p.rest.length + 1) 0 p.skipBreak
        blockLines literal indent fuel ⟨out, true, more, blank⟩ p

/-- The text of a block that the end of all cuts off before its first line. -/
def emptyBlock (chomping : Chomping) (ended : Bool) (more : Nat) : List Char :=
  match chomping with
  | .strip => []
  | .clip => if ended then ['\n'] else []
  | .keep => if more = 0 then (if ended then ['\n'] else []) else List.replicate more '\n'

/-- A text in a block, after the mark that starts it. `indent` is the column of what the
block belongs to. -/
def block? (literal : Bool) (indent : Int) (p : Place) : Option (String × Place) := do
  let (chomping, depth, p) ← blockMarks? p
  let (_, p) ← p.skipComment? true
  if !endsLine p.rest then none else
  let ended := !p.rest.isEmpty
  let p := p.skipBreak
  if p.rest.head? = some '\t' then none else
  let (column, more, p) :=
    if depth = 0 then
      let (column, more, p) := skipFirstIndent (p.rest.length + 1) 0 0 p
      (max (max column (indent + 1).toNat) (if 0 < indent then 1 else 0), more, p)
    else
      let column := (max indent 0).toNat + depth
      let (more, p) := skipIndent column (p.rest.length + 1) 0 p
      (column, more, p)
  if p.rest.isEmpty then
    return (String.ofList (emptyBlock chomping ended more), p)
  if p.col < column && indent < p.col then none else
  let (b, p) := blockLines literal column (p.rest.length + 1) ⟨[], false, more, false⟩ p
  let cut := p.rest.isEmpty && max column 1 ≤ p.col
  let ends := match chomping with
    | .strip => 0
    | .clip => (if b.ended then 1 else 0) + if cut then 1 else 0
    | .keep => (if b.ended then 1 else 0) + (if cut then 1 else 0) + b.more
  return (String.ofList (List.replicate ends '\n' ++ b.out).reverse, p)

/-! ### No quotes -/

/-- Whether a text without quotes goes on here. -/
def goesOn (flow : Bool) : List Char → Bool
  | [] => false
  | ':' :: rest => !endsWord rest && !(flow && rest.head?.any isFlow)
  | c :: _ => !isBlank c && !isBreak c && !(flow && isFlow c)

def plainWord (flow : Bool) : (out : List Char) → (n : Nat) → List Char → List Char × Nat
  | out, n, [] => (out, n)
  | out, n, c :: rest =>
    if goesOn flow (c :: rest) then plainWord flow (c :: out) (n + 1) rest else (out, n)

/-- Read blanks and line ends. Tabs may indent only lines without anything else. -/
def plainGap? (indent : Int) : (fuel : Nat) → Gap → Place → Option (Gap × Place)
  | 0, _, _ => none
  | fuel + 1, g, p =>
    match p.rest with
    | [] => some (g, p)
    | c :: _ =>
      if isBlank c then
        if !p.indenting then
          plainGap? indent fuel { g with blanks := c :: g.blanks } (p.skipBlanks 1)
        else if c = '\t' && p.col < indent then do
          let (_, p) ← p.skipComment? true
          if endsLine p.rest then plainGap? indent fuel g p else none
        else plainGap? indent fuel g (p.skipBlanks 1)
      else if isBreak c then
        let g : Gap :=
          if p.indenting then { g with more := g.more + 1 }
          else { g with blanks := [], first := true }
        plainGap? indent fuel g p.skipBreak
      else some (g, p)

/-- Read a text without quotes, where a gap comes before each word. -/
def plainLines? (indent : Int) (flow : Bool) : (fuel : Nat) → (out : List Char) → Gap → Place →
    Option (List Char × Place)
  | 0, _, _, _ => none
  | fuel + 1, out, g, p =>
    if p.startsDocument || p.endsDocument || p.rest.head? = some '#' then some (out, p)
    else if flow && p.rest.head? = some '-' && (p.rest.drop 1).head?.any isFlow then none
    else
      let (out, g, p) :=
        if goesOn flow p.rest then
          let (word, n) := plainWord flow ({ g with ended := p.indenting }.close out) 0 p.rest
          (word, ⟨[], false, false, 0⟩, p.skip n)
        else (out, g, p)
      if !p.rest.head?.any fun c => isBlank c || isBreak c then some (out, p)
      else do
        let (g, p) ← plainGap? indent (p.rest.length + 1) g p
        if !flow && p.col < indent then return (out, p)
        plainLines? indent flow fuel out g p

/-- A text without quotes. -/
def plain? (indent : Int) (flow : Bool) (p : Place) : Option (String × Place) := do
  if flow && p.col < indent then none else
  let (out, p) ← plainLines? indent flow (p.rest.length + 1) [] ⟨[], false, false, 0⟩ p
  if out.isEmpty then none else return (String.ofList out.reverse, p)

end TaskDialogue.Yaml
