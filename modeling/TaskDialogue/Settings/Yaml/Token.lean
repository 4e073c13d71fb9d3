import TaskDialogue.Settings.Yaml.Scalar
import TaskDialogue.Settings.Yaml.Tag

/-!
# Tokens of YAML text

Blocks are told by their indentation, so tokens say where a block starts and where it ends.
A key needs no mark of its own: only the colon after it tells that what came before it was
one. Every text or collection that could be a key is therefore kept as a *candidate* until
the colon comes or cannot come any more, and its tokens are inserted later.
-/
namespace TaskDialogue.Yaml

inductive Token where
  | directive (d : Directive)
  | documentStart
  | documentEnd
  | blockList
  | blockMap
  | blockEnd
  | flowList
  | flowListEnd
  | flowMap
  | flowMapEnd
  /-- A dash before an item. -/
  | item
  | comma
  | key
  | value
  | alias (name : String)
  | anchor (name : String)
  | tag (handle suffix : String)
  /-- A text; `plain` says that it stood without quotes. -/
  | scalar (plain : Bool) (text : String)
deriving DecidableEq, Repr

/-- Something that may turn out to be a key. -/
structure Candidate where
  /-- How many tokens come before it. -/
  number : Nat
  place : Place
  /-- Whether it must be a key, since it starts a line of a block of keys. -/
  required : Bool

structure Scan where
  place : Place
  /-- The tokens so far, the last one first. -/
  tokens : List Token
  /-- The column of the block that is open, or -1. -/
  indent : Int
  /-- The columns of the blocks around it. The flag says that an end is to be told; else the
  column only bounds what belongs to a key. -/
  indents : List (Int × Bool)
  /-- How many brackets are open. -/
  flow : Nat
  keyAllowed : Bool
  /-- The candidate within each open bracket, the innermost first, and outside of all. -/
  candidates : List (Option Candidate)
  /-- Where a colon needs no blank after it. -/
  adjacent : Nat
  /-- Whether a map in brackets was started. -/
  mapStarted : Bool
  /-- Whether a pair that stands in a list is open as a map. -/
  pairOpen : Bool

namespace Scan

def start (text : String) : Scan :=
  { place := .start text, tokens := [], indent := -1, indents := [], flow := 0, keyAllowed := true,
    candidates := [none], adjacent := 0, mapStarted := false, pairOpen := false }

def push (s : Scan) (t : Token) : Scan := { s with tokens := t :: s.tokens }

/-- Insert a token where `number` tokens come before it. -/
def insert (s : Scan) (number : Nat) (t : Token) : Scan :=
  let later := s.tokens.length - number
  { s with tokens := s.tokens.take later ++ t :: s.tokens.drop later }

/-! ### Indentation -/

/-- Open a block at a column that is further in, with a token at the end or where `number`
tokens come before it. There are no blocks in brackets. -/
def openBlock (s : Scan) (col : Nat) (number : Option Nat) (t : Token) : Scan :=
  if 0 < s.flow then s
  else
    let s : Scan := match s.indents with
      | (before, false) :: indents =>
        if s.indent ≤ col then { s with indent := before, indents := indents } else s
      | _ => s
    if s.indent < col then
      let s := { s with indent := col, indents := (s.indent, true) :: s.indents }
      match number with
      | some number => s.insert number t
      | none => s.push t
    else s

/-- The column of the innermost block that is not further in than `col`, the blocks around
it, and how many ends of blocks that takes. -/
def closed (col : Int) : (indent : Int) → (indents : List (Int × Bool)) → (ends : Nat) →
    Int × List (Int × Bool) × Nat
  | indent, [], ends => (indent, [], ends)
  | indent, (before, block) :: indents, ends =>
    if col < indent then closed col before indents (if block then ends + 1 else ends)
    else (indent, (before, block) :: indents, ends)

/-- Close the blocks that are further in than a column. -/
def closeBlocks (s : Scan) (col : Int) : Scan :=
  if 0 < s.flow then s
  else
    let (indent, indents, ends) := closed col s.indent s.indents 0
    { s with
      indent := indent, indents := indents,
      tokens := List.replicate ends .blockEnd ++ s.tokens }

/-- Bound what belongs to a key of a block by the column after the one of the block. -/
def boundNext (s : Scan) : Scan :=
  match s.indents with
  | (_, true) :: _ =>
    if s.flow = 0 then
      { s with indent := s.indent + 1, indents := (s.indent, false) :: s.indents }
    else s
  | _ => s

/-- The column and the blocks around it without such bounds. -/
def unbounded : (indent : Int) → (indents : List (Int × Bool)) → Int × List (Int × Bool)
  | _, (before, false) :: indents => unbounded before indents
  | indent, indents => (indent, indents)

/-- Give up such bounds. -/
def unbound (s : Scan) : Scan :=
  let (indent, indents) := unbounded s.indent s.indents
  { s with indent := indent, indents := indents }

/-! ### Candidates -/

/-- Make what comes next a candidate, if a key may stand here. -/
def propose (s : Scan) : Scan :=
  if !s.keyAllowed then s
  else
    let required := s.flow = 0 && s.indent = s.place.col && s.indents.head?.any (·.2)
    let candidate : Candidate := ⟨s.tokens.length, s.place, required⟩
    { s with candidates := some candidate :: s.candidates.drop 1 }

/-- Give up the innermost candidate, unless it must be a key. -/
def reject? (s : Scan) : Option Scan :=
  match s.candidates with
  | some c :: rest => if c.required then none else some { s with candidates := none :: rest }
  | _ => some s

/-- How far a colon may be from the start of its key. -/
def keyBound : Nat := 1024

/-- Give up a candidate outside of brackets that is in an earlier line or too far away. -/
def expire? (s : Scan) : Option Scan :=
  match s.candidates with
  | some c :: _ =>
    if s.flow = 0 &&
        (c.place.line < s.place.line || c.place.index + keyBound < s.place.index) then s.reject?
    else some s
  | _ => some s

/-- Close the pair that is open as a map. -/
def closePair (s : Scan) : Scan :=
  if s.pairOpen then { s with pairOpen := false, mapStarted := false }.push .flowMapEnd else s

/-! ### Single tokens -/

/-- Go on after a mark of one character and what is left of its line. -/
def afterMark? (s : Scan) : Option Scan := do
  let (_, p) ← (s.place.skip 1).skipComment? true
  return { s with place := p }

/-- How many brackets may be open. -/
def flowBound : Nat := 255

def openFlow? (s : Scan) (t : Token) : Option Scan := do
  let s := s.propose.boundNext
  if s.flow = flowBound then none else
  let s := { s with
    candidates := none :: s.candidates, flow := s.flow + 1, keyAllowed := true,
    mapStarted := s.mapStarted || t == Token.flowMap }
  return (← s.afterMark?).push t

def closeFlow? (s : Scan) (t : Token) : Option Scan := do
  let s ← s.reject?
  let s :=
    if 0 < s.flow then { s with flow := s.flow - 1, candidates := s.candidates.drop 1 } else s
  let s ← { s with keyAllowed := false }.closePair.afterMark?
  let s := if 0 < s.flow then { s with adjacent := s.place.index } else s
  return s.push t

def comma? (s : Scan) : Option Scan := do
  return (← { (← s.reject?) with keyAllowed := true }.closePair.afterMark?).push .comma

/-- A dash before an item. A tab must not come between two dashes. -/
def item? (s : Scan) : Option Scan := do
  if 0 < s.flow || !s.keyAllowed then none else
  let s := s.openBlock s.place.col none .blockList
  let (blanks, p) ← (s.place.skip 1).skipComment? true
  let dash := match p.rest with
    | '-' :: rest => endsWord rest
    | _ => false
  if blanks.contains '\t' && dash then none else
  let s := { s with place := p }
  let s := if p.rest.head?.any fun c => isBreak c || isFlow c then s.boundNext else s
  return { (← s.reject?) with keyAllowed := true }.push .item

/-- Pass over blanks, line ends and comments after the mark of a key, where no tab may
stand. -/
def afterKeyMark? : (fuel : Nat) → (blank : Bool) → Scan → Option Scan
  | 0, _, _ => none
  | fuel + 1, blank, s =>
    match s.place.rest with
    | '#' :: _ => afterKeyMark? fuel blank { s with place := s.place.skipLine }
    | c :: _ =>
      if c = ' ' then afterKeyMark? fuel true { s with place := s.place.skipBlanks 1 }
      else if isBreak c then
        afterKeyMark? fuel true
          { s with place := s.place.skipBreak, keyAllowed := s.keyAllowed || s.flow = 0 }
      else if blank && c ≠ '\t' then some s
      else none
    | [] => if blank then some s else none

def key? (s : Scan) : Option Scan := do
  if s.flow = 0 && !s.keyAllowed then none else
  let s :=
    if s.flow = 0 then s.openBlock s.place.col none .blockMap else { s with mapStarted := true }
  let s := { (← s.reject?) with keyAllowed := s.flow = 0, place := s.place.skip 1 }
  return (← afterKeyMark? (s.place.rest.length + 1) false s).push .key

/-- A colon. It makes a key of the candidate, if there is one. -/
def value? (s : Scan) : Option Scan := do
  let p := s.place
  let s := { s with pairOpen := 0 < s.flow && !s.mapStarted, place := p.skip 1 }
  let s ←
    if s.place.rest.head? = some '\t' then do
      let (blanks, p) ← s.place.skipComment? true
      if !blanks.contains ' ' && p.rest.head?.any isWordChar then none
      else some { s with place := p }
    else some s
  match s.candidates with
  | some c :: rest =>
    if s.pairOpen && c.place.line < p.line then none else
    let s := s.insert c.number .key
    let s := if s.pairOpen then s.insert c.number .flowMap else s
    let s := (s.openBlock c.place.col (some c.number) .blockMap).boundNext
    return { s with candidates := none :: rest, keyAllowed := false }.push .value
  | _ =>
    let s := if s.pairOpen then s.push .flowMap else s
    if s.flow = 0 && !s.keyAllowed then none else
    let s := (s.openBlock p.col none .blockMap).boundNext
    return { s with keyAllowed := s.flow = 0 }.push .value

/-- A mark of a document, which closes all blocks. -/
def document? (s : Scan) (t : Token) : Option Scan := do
  let s ← (s.closeBlocks (-1)).reject?
  let s := { s with keyAllowed := false, place := s.place.skip 3 }.push t
  if t ≠ .documentEnd then return s else
  let (_, p) ← s.place.skipComment? true
  if endsLine p.rest then return { s with place := p } else none

/-- What a document says before its start. It closes all blocks. -/
def directive? (s : Scan) : Option Scan := do
  let s ← (s.closeBlocks (-1)).reject?
  let (d, p) ← Yaml.directive? s.place
  return { s with keyAllowed := false, place := p }.push (.directive d)

def alias? (s : Scan) : Option Scan := do
  let s := s.propose
  let (name, p) ← anchor? s.place
  return { s with keyAllowed := false, place := p }.push (.alias name)

def anchor? (s : Scan) : Option Scan := do
  let s := s.propose
  let (name, p) ← Yaml.anchor? s.place
  return { s with keyAllowed := false, place := p }.push (.anchor name)

def tag? (s : Scan) : Option Scan := do
  let s := s.propose
  let ((handle, suffix), p) ← Yaml.tag? (0 < s.flow) s.place
  return { s with keyAllowed := false, place := p }.push (.tag handle suffix)

def block? (s : Scan) (literal : Bool) : Option Scan := do
  let s := s.propose.unbound
  let (text, p) ← Yaml.block? literal s.indent (s.place.skip 1)
  return { s with keyAllowed := true, place := p }.push (.scalar false text)

def plain? (s : Scan) : Option Scan := do
  let s := s.propose.unbound
  let (text, p) ← Yaml.plain? (s.indent + 1) (0 < s.flow) s.place
  return { s with keyAllowed := p.indenting, place := p }.push (.scalar true text)

/-! ### All tokens -/

/-- Pass over blanks, line ends and comments. Tabs must not indent what stands in a block. -/
def skipGap? : (fuel : Nat) → Scan → Option Scan
  | 0, _ => none
  | fuel + 1, s =>
    match s.place.rest with
    | [] => some s
    | '#' :: _ => skipGap? fuel { s with place := s.place.skipLine }
    | c :: _ =>
      if isBreak c then
        let s := { s with place := s.place.skipBreak, keyAllowed := s.keyAllowed || s.flow = 0 }
        skipGap? fuel s
      else if c = '\t' && !s.indents.isEmpty && s.place.indenting && s.place.col < s.indent then do
        let (_, p) ← s.place.skipComment? true
        if endsLine p.rest then skipGap? fuel { s with place := p } else none
      else if isBlank c then skipGap? fuel { s with place := s.place.skipBlanks 1 }
      else some s

/-- Pass over what comes before the next token. -/
def skip? (s : Scan) : Option Scan := skipGap? (s.place.rest.length + 1) s

/-- A text in quotes. A colon right after it makes it a key within brackets. -/
def quoted? (s : Scan) (single : Bool) : Option Scan := do
  let s := s.propose
  let (text, p) ← Yaml.quoted? single s.indent (0 < s.flow) s.place
  let s ← { s with keyAllowed := false, place := p }.skip?
  return { s with adjacent := s.place.index }.push (.scalar false text)

def token? (s : Scan) (c : Char) (rest : List Char) : Option Scan :=
  let flow : Bool := 0 < s.flow
  let colon := endsWord rest || flow && (rest.head?.any isFlow || s.place.index = s.adjacent)
  match c with
  | '[' => s.openFlow? .flowList
  | '{' => s.openFlow? .flowMap
  | ']' => s.closeFlow? .flowListEnd
  | '\x7d' => s.closeFlow? .flowMapEnd
  | ',' => s.comma?
  | '-' => if endsWord rest then s.item? else s.plain?
  | '?' => if endsWord rest then s.key? else s.plain?
  | ':' => if colon then s.value? else s.plain?
  | '*' => s.alias?
  | '&' => s.anchor?
  | '!' => s.tag?
  | '|' => if flow then s.plain? else s.block? true
  | '>' => if flow then s.plain? else s.block? false
  | '\'' => s.quoted? true
  | '"' => s.quoted? false
  | '%' | '@' | '\x60' => none
  | _ => s.plain?

/-- Read a token, which may close blocks. -/
def next? (s : Scan) (c : Char) (rest : List Char) : Option Scan :=
  if s.place.col = 0 && c = '%' then s.directive?
  else if s.place.startsDocument then s.document? .documentStart
  else if s.place.endsDocument then s.document? .documentEnd
  else if s.place.col < s.indent then none
  else s.token? c rest

/-- Read tokens up to the end. Each takes a character at least. -/
def run? : (fuel : Nat) → Scan → Option Scan
  | 0, _ => none
  | fuel + 1, s => do
    let s ← (← s.skip?).expire?
    let s := s.closeBlocks s.place.col
    match s.place.rest with
    | [] => (s.closeBlocks (-1)).reject?
    | c :: rest => run? fuel (← s.next? c rest)

end Scan

def tokens? (text : String) : Option (List Token) :=
  (Scan.run? (text.length + 1) (.start text)).map fun s => s.tokens.reverse

end TaskDialogue.Yaml
