import TaskDialogue.Settings.Toml.Table
import TaskDialogue.Text.Blank

/-!
# Reading TOML documents

A document is a sequence of lines: blank ones, definitions of a value under a key, and
headers that open the table for the definitions after them. Only arrays and strings
with three quotes go over several lines.
-/
namespace TaskDialogue.Toml

/-- How deep arrays and inline tables may be nested. -/
def maxDepth : Nat := 79

def word? (w : String) (cs : List Char) : Option (List Char) := Text.dropPrefix? w.toList cs

mutual

/-- A value, with room for `depth` containers. Every step takes a character off the
text or goes from an item to its value, so twice the length is fuel enough. -/
def value? : (fuel depth : Nat) → List Char → Option (Item × List Char)
  | 0, _, _ => none
  | fuel + 1, depth, cs =>
    match cs with
    | '"' :: _ | '\'' :: _ => (string? cs).map fun r => (.plain (.text r.1), r.2)
    | 't' :: _ => (word? "true" cs).map (.plain (.flag true), ·)
    | 'f' :: _ => (word? "false" cs).map (.plain (.flag false), ·)
    | '[' :: rest =>
      match depth with
      | 0 => none
      | depth + 1 => (items? fuel depth rest).map fun r => (.list r.1, r.2)
    | '{' :: rest =>
      match depth with
      | 0 => none
      | depth + 1 =>
        match skipSpace rest with
        | '\x7d' :: rest => some (.table .braces [], rest)
        | rest => (fields? fuel depth [] rest).map fun r => (.table .braces r.1, r.2)
    | cs =>
      match moment? cs with
      | some (moment, rest) => some (.moment (String.ofList moment), rest)
      | none => (number? cs).map fun r => (.plain r.1, r.2)

/-- The items of an array, after its bracket or a comma. A comma may follow the last
one. -/
def items? : (fuel depth : Nat) → List Char → Option (List Item × List Char)
  | 0, _, _ => none
  | fuel + 1, depth, cs =>
    match skipGaps false cs with
    | ']' :: rest => some ([], rest)
    | cs => do
      let (item, rest) ← value? fuel depth cs
      match skipGaps false rest with
      | ']' :: rest => some ([item], rest)
      | ',' :: rest =>
        let (items, rest) ← items? fuel depth rest
        some (item :: items, rest)
      | _ => none

/-- The definitions of an inline table, added to those before. -/
def fields? : (fuel depth : Nat) → Entries → List Char → Option (Entries × List Char)
  | 0, _, _, _ => none
  | fuel + 1, depth, es, cs => do
    let (keys, rest) ← keys? maxKeys cs
    let '=' :: rest := rest | none
    let (value, rest) ← value? fuel depth (skipSpace rest)
    let es ← es.define? (keys.getLastD "") value keys.dropLast
    match skipSpace rest with
    | '\x7d' :: rest => some (es, rest)
    | ',' :: rest => fields? fuel depth es rest
    | _ => none

end

/-- The tables of a document so far, and the path of the one that is open. -/
structure Draft where
  root : Entries
  header : List String

/-- A header, after its first bracket. -/
def Draft.open? (d : Draft) (cs : List Char) : Option (Draft × List Char) :=
  match cs with
  | '[' :: rest => do
    let (keys, rest) ← keys? maxKeys rest
    let ']' :: ']' :: rest := rest | none
    let root ← d.root.within? (Entries.openRow? (keys.getLastD "")) keys.dropLast
    some (⟨root, keys⟩, rest)
  | _ => do
    let (keys, rest) ← keys? maxKeys cs
    let ']' :: rest := rest | none
    let root ← d.root.within? (Entries.openTable? (keys.getLastD "")) keys.dropLast
    some (⟨root, keys⟩, rest)

def Draft.define? (d : Draft) (cs : List Char) : Option (Draft × List Char) := do
  let (keys, rest) ← keys? maxKeys cs
  let '=' :: rest := rest | none
  let (value, rest) ← value? (2 * rest.length + 2) maxDepth (skipSpace rest)
  let root ← d.root.within? (Entries.define? (keys.getLastD "") value keys.dropLast) d.header
  some (⟨root, d.header⟩, rest)

/-- The lines of a document. Each takes a character at least, so the length of the
text bounds their number. -/
def lines? : (fuel : Nat) → Draft → List Char → Option Draft
  | 0, _, _ => none
  | fuel + 1, d, cs =>
    match skipSpace cs with
    | [] => some d
    | '[' :: rest => do
      let (d, rest) ← d.open? rest
      lines? fuel d (← endLine? rest)
    | c :: rest =>
      if c = '#' || c = '\n' || c = '\r' then (endLine? (c :: rest)).bind (lines? fuel d)
      else do
        let (d, rest) ← d.define? (c :: rest)
        lines? fuel d (← endLine? rest)

def parse? (text : String) : Option (List (String × Setting)) := do
  let cs := match text.toList with
    | '\uFEFF' :: rest => rest
    | cs => cs
  let d ← lines? (cs.length + 1) ⟨[], []⟩ cs
  let .table entries ← tableSetting? d.root | none
  return entries

end TaskDialogue.Toml
