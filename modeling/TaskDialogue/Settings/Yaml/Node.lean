import TaskDialogue.Number.Read
import TaskDialogue.Settings.Yaml.Token

/-!
# Nodes of YAML documents

What the tokens of a document say: texts that stood without quotes have become numbers and
truth values, and aliases the nodes that they name. A node may be named before it is
complete; an alias to it within itself, like a text that does not fit its tag, makes no
sense. Keys are texts, numbers or truth values, and no two keys of a map are the same.
-/
namespace TaskDialogue.Yaml

inductive Key where
  | flag (b : Bool)
  | int (n : Int)
  | real (text : String)
  | text (s : String)
deriving DecidableEq, Repr

/-- A node. Numbers with a fraction are kept as they were written. -/
inductive Node where
  | senseless
  | nothing
  | flag (b : Bool)
  | int (n : Int)
  | real (text : String)
  | text (s : String)
  | list (items : List Node)
  | map (entries : List (Key × Node))
deriving Inhabited

namespace Node

/-! ### Texts -/

/-- The words with a point for numbers that have no digits. -/
def namedReals : List String :=
  [".inf", ".Inf", ".INF", "+.inf", "+.Inf", "+.INF", "-.inf", "-.Inf", "-.INF", ".nan", ".NAN"]

/-- Whether a text writes a number with a fraction or an exponent, or one that has no
digits. -/
def isReal (text : String) : Bool :=
  namedReals.contains text || (Number.double? text.toList).isSome

/-- A whole number of 64 bits in a base, with or without a sign. -/
def based? (base : Nat) (cs : List Char) : Option Int := do
  let (down, digits) := Number.sign cs
  let n : Int ← Text.readBase? base digits
  let n := if down then -n else n
  if Number.fitsInt64 n then some n else none

/-- A whole number: hexadecimal, octal, or decimal with up to two signs. -/
def whole? (cs : List Char) : Option Int :=
  match cs with
  | '0' :: 'x' :: rest => based? 16 rest
  | '0' :: 'o' :: rest => based? 8 rest
  | '+' :: rest => (Number.whole? rest).or (Number.whole? cs)
  | _ => Number.whole? cs

/-- What a text without quotes stands for. -/
def ofPlain (s : String) : Node :=
  match whole? s.toList, s with
  | some n, _ => int n
  | none, "~" | none, "null" => nothing
  | none, "true" => flag true
  | none, "false" => flag false
  | none, s => if isReal s then real s else text s

/-- The addresses of the tags that have a meaning start so. -/
def coreTags : String := "tag:yaml.org,2002:"

/-- What a text without quotes stands for under a tag. -/
def ofTagged (tag : String × String) (s : String) : Node :=
  if tag.1 ≠ coreTags then text s
  else
    match tag.2, s with
    | "bool", "true" => flag true
    | "bool", "false" => flag false
    | "bool", _ => senseless
    | "int", s => ((Number.whole? s.toList).map int).getD senseless
    | "float", s => if isReal s then real s else senseless
    | "null", "~" | "null", "null" => nothing
    | "null", _ => senseless
    | _, s => text s

/-- What a text stands for. Quotes keep it a text. -/
def ofScalar (tag : Option (String × String)) (plain : Bool) (s : String) : Node :=
  if !plain then text s
  else
    match tag with
    | some tag => ofTagged tag s
    | none => ofPlain s

/-! ### Maps -/

def key? : Node → Option Key
  | flag b => some (.flag b)
  | int n => some (.int n)
  | real s => some (.real s)
  | text s => some (.text s)
  | _ => none

/-- The entries of a map from its keys and values in turn. A key that makes no sense is left
out, and what follows it stands in its place. -/
def pairs? (before : List (Key × Node)) : List Node → Option (List (Key × Node))
  | [] => some before.reverse
  | senseless :: rest => pairs? before rest
  | [_] => some before.reverse
  | key :: value :: rest => do
    let key ← key.key?
    if before.any (·.1 = key) then none else pairs? ((key, value) :: before) rest

def ofPairs? (nodes : List Node) : Option Node := (pairs? [] nodes).map map

end Node

/-! ### Documents -/

structure Reading where
  tokens : List Token
  /-- The numbers of the nodes that have a name, the last ones first. -/
  names : List (String × Nat)
  /-- The nodes that have a name and are complete. -/
  known : List (Nat × Node)
  /-- What handles stand for. -/
  handles : List (String × String)

/-- What stands before a node. -/
structure Properties where
  number : Option Nat
  tag : Option (String × String)

namespace Reading

/-- Give the next node a name. Its number is how many names were given before. -/
def name (r : Reading) (name : String) : Nat × Reading :=
  (r.names.length, { r with names := (name, r.names.length) :: r.names })

/-- The address that a tag stands for. A named handle has to be known. -/
def resolve? (r : Reading) (handle suffix : String) : Option (String × String) :=
  match r.handles.lookup handle with
  | some start => some (start, suffix)
  | none =>
    if handle = "!!" then some (Node.coreTags, suffix)
    else if isNamed handle.toList then none
    else some (handle, suffix)

/-- The name and the tag of a node, in either order. -/
def properties? (r : Reading) : Option (Properties × Reading) := do
  match r.tokens with
  | .anchor name :: .tag handle suffix :: rest | .tag handle suffix :: .anchor name :: rest =>
    let tag ← r.resolve? handle suffix
    let (number, r) := r.name name
    return (⟨some number, some tag⟩, { r with tokens := rest })
  | .anchor name :: rest =>
    let (number, r) := r.name name
    return (⟨some number, none⟩, { r with tokens := rest })
  | .tag handle suffix :: rest =>
    return (⟨none, some (← r.resolve? handle suffix)⟩, { r with tokens := rest })
  | _ => return (⟨none, none⟩, r)

def alias? (r : Reading) (name : String) : Option Node := do
  let number ← r.names.lookup name
  return (r.known.lookup number).getD .senseless

def drop (r : Reading) : Reading := { r with tokens := r.tokens.drop 1 }

def ahead (r : Reading) (ts : List Token) : Bool := r.tokens.head?.any ts.contains

mutual

/-- A node. Blocks are read if `block` admits them, and lists that are not indented if
`dashes` does. Every step takes a token or goes on with a part, so that a multiple of the
number of tokens is fuel enough. -/
def node? : (fuel : Nat) → (block dashes : Bool) → Reading → Option (Node × Reading)
  | 0, _, _, _ => none
  | fuel + 1, block, dashes, r =>
    match r.tokens with
    | .alias name :: _ => do return (← r.alias? name, r.drop)
    | _ => do
      let (p, r) ← r.properties?
      let (node, r) ← content? fuel block dashes p r
      match p.number with
      | some number => return (node, { r with known := (number, node) :: r.known })
      | none => return (node, r)

/-- What a node holds. With a name or a tag it may hold nothing. -/
def content? : (fuel : Nat) → (block dashes : Bool) → Properties → Reading →
    Option (Node × Reading)
  | 0, _, _, _, _ => none
  | fuel + 1, block, dashes, p, r =>
    match r.tokens, block, dashes with
    | .item :: _, _, true => (dashItems? fuel r).map fun n => (.list n.1, n.2)
    | .scalar plain text :: _, _, _ => some (.ofScalar p.tag plain text, r.drop)
    | .flowList :: _, _, _ => (flowItems? fuel true r.drop).map fun n => (.list n.1, n.2)
    | .flowMap :: _, _, _ => do
      let (nodes, r) ← flowPairs? fuel true r.drop
      return (← Node.ofPairs? nodes, r)
    | .blockList :: _, true, _ => (blockItems? fuel r.drop).map fun n => (.list n.1, n.2)
    | .blockMap :: _, true, _ => do
      let (nodes, r) ← blockPairs? fuel r.drop
      return (← Node.ofPairs? nodes, r)
    | _, _, _ =>
      if p.number.isSome || p.tag.isSome then some (.ofScalar p.tag true "", r) else none

/-- A node, or nothing before a token that ends it. -/
def nodeUnless? : (fuel : Nat) → (ends : List Token) → (block dashes : Bool) → Reading →
    Option (Node × Reading)
  | 0, _, _, _, _ => none
  | fuel + 1, ends, block, dashes, r =>
    if r.ahead ends then some (.nothing, r) else node? fuel block dashes r

/-- The items of a list that is not indented. -/
def dashItems? : (fuel : Nat) → Reading → Option (List Node × Reading)
  | 0, _ => none
  | fuel + 1, r =>
    match r.tokens with
    | .item :: _ => do
      let (item, r) ← nodeUnless? fuel [.item, .key, .value, .blockEnd] true false r.drop
      let (items, r) ← dashItems? fuel r
      return (item :: items, r)
    | _ => some ([], r)

def blockItems? : (fuel : Nat) → Reading → Option (List Node × Reading)
  | 0, _ => none
  | fuel + 1, r =>
    match r.tokens with
    | .blockEnd :: _ => some ([], r.drop)
    | .item :: _ => do
      let (item, r) ← nodeUnless? fuel [.item, .blockEnd] true false r.drop
      let (items, r) ← blockItems? fuel r
      return (item :: items, r)
    | _ => none

def blockPairs? : (fuel : Nat) → Reading → Option (List Node × Reading)
  | 0, _ => none
  | fuel + 1, r => do
    let ends := [.key, .value, .blockEnd]
    match r.tokens with
    | .blockEnd :: _ => return ([], r.drop)
    | .key :: _ | .value :: _ =>
      let (key, r) ←
        if r.ahead [.key] then nodeUnless? fuel ends true true r.drop else some (.nothing, r)
      let (value, r) ←
        if r.ahead [.value] then nodeUnless? fuel ends true true r.drop else some (.nothing, r)
      let (nodes, r) ← blockPairs? fuel r
      return (key :: value :: nodes, r)
    | _ => none

/-- The items of a list in brackets. A comma may follow the last one. -/
def flowItems? : (fuel : Nat) → (first : Bool) → Reading → Option (List Node × Reading)
  | 0, _, _ => none
  | fuel + 1, first, r => do
    if r.ahead [.flowListEnd] then return ([], r.drop)
    if !first && !r.ahead [.comma] then none else
    let r := if first then r else r.drop
    match r.tokens with
    | .flowListEnd :: _ => return ([], r.drop)
    | .key :: _ =>
      let (pair, r) ← flowPair? fuel r.drop
      let (items, r) ← flowItems? fuel false r
      return (pair :: items, r)
    | _ =>
      let (item, r) ← node? fuel false false r
      let (items, r) ← flowItems? fuel false r
      return (item :: items, r)

/-- A pair in a list, after the mark of its key. -/
def flowPair? : (fuel : Nat) → Reading → Option (Node × Reading)
  | 0, _ => none
  | fuel + 1, r => do
    let (key, r) ←
      if r.ahead [.value, .comma, .flowListEnd] then some (.nothing, r.drop)
      else node? fuel false false r
    let (value, r) ←
      if r.ahead [.value] then nodeUnless? fuel [.comma, .flowListEnd] false false r.drop
      else some (.nothing, r)
    return (← Node.ofPairs? [key, value], r)

/-- The keys and values of a map in brackets in turn. A comma may follow the last pair. -/
def flowPairs? : (fuel : Nat) → (first : Bool) → Reading → Option (List Node × Reading)
  | 0, _, _ => none
  | fuel + 1, first, r => do
    if r.ahead [.flowMapEnd] then return ([], r.drop)
    if !first && !r.ahead [.comma] then none else
    let r := if first then r else r.drop
    if r.ahead [.flowMapEnd] then return ([], r.drop)
    let (key, value, r) ←
      if r.ahead [.key, .value] then do
        let (key, r) ←
          if r.ahead [.key] then
            nodeUnless? fuel [.value, .comma, .flowMapEnd] false false r.drop
          else some (.nothing, r)
        let (value, r) ←
          if r.ahead [.value] then nodeUnless? fuel [.comma, .flowMapEnd] false false r.drop
          else some (.nothing, r)
        some (key, value, r)
      else do
        let (key, r) ← node? fuel false false r
        some (key, .nothing, r)
    let (nodes, r) ← flowPairs? fuel false r
    return (key :: value :: nodes, r)

end

/-- What a document says before its start, of which the last directive counts; there may be
one about the version. -/
def directives? : (version : Bool) → List Token → (handles : List (String × String)) →
    Option (List (String × String) × List Token)
  | version, .directive .version :: rest, _ => if version then none else directives? true rest []
  | version, .directive (.handle name start) :: rest, _ => directives? version rest [(name, start)]
  | _, ts, handles => some (handles, ts)

def endsDocument : List Token → Bool
  | [] | .directive _ :: _ | .documentStart :: _ | .documentEnd :: _ => true
  | _ => false

/-- A document. Without a mark of its start it must be the first one, or come after the end
of one. -/
def document? (implicit : Bool) (tokens : List Token) : Option (Node × List Token) := do
  let fuel := 4 * tokens.length + 4
  match tokens with
  | .directive _ :: _ | .documentStart :: _ =>
    let (handles, tokens) ← directives? false tokens []
    let .documentStart :: rest := tokens | none
    if endsDocument rest then return (.nothing, rest) else
    let (node, r) ← node? fuel true false ⟨rest, [], [], handles⟩
    return (node, r.tokens)
  | _ =>
    if !implicit then none else
    let (node, r) ← node? fuel true false ⟨tokens, [], [], []⟩
    return (node, r.tokens)

/-- All documents. Each takes a token at least. -/
def documents? : (fuel : Nat) → (implicit : Bool) → List Token → Option (List Node)
  | 0, _, _ => none
  | fuel + 1, implicit, tokens => do
    match tokens.dropWhile (· = .documentEnd) with
    | [] => return []
    | tokens =>
      let (node, rest) ← document? implicit tokens
      match rest with
      | .directive _ :: _ => none
      | .documentEnd :: rest => return node :: (← documents? fuel true rest)
      | rest => return node :: (← documents? fuel false rest)

end Reading

def documents? (text : String) : Option (List Node) := do
  let tokens ← tokens? text
  Reading.documents? (tokens.length + 1) true tokens

end TaskDialogue.Yaml
