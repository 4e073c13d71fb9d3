import TaskDialogue.Json.Basic
import TaskDialogue.Number.Shortest
import TaskDialogue.Settings.Key

/-!
# Configured values

Settings come from files and from the environment, and a later source is laid over
an earlier one. Tables are laid over each other entry by entry, whatever the case of
their names; anything else takes the place of what was there.
-/
namespace TaskDialogue

inductive Setting where
  | nothing
  | flag (b : Bool)
  | int (n : Int)
  | float (x : Double)
  | text (s : String)
  | list (items : List Setting)
  | table (entries : List (String × Setting))
deriving Inhabited

namespace Setting

/-- The entries of a table; anything else has none. -/
def entries : Setting → List (String × Setting)
  | table entries => entries
  | _ => []

def lookup? (name : String) : List (String × Setting) → Option Setting
  | [] => none
  | (k, v) :: rest => if k = name then some v else lookup? name rest

/-- Set the entry of a name: in its place, or at the end when the name is new. -/
def insert (name : String) (value : Setting) : List (String × Setting) → List (String × Setting)
  | [] => [(name, value)]
  | (k, v) :: rest => if k = name then (k, value) :: rest else (k, v) :: insert name value rest

theorem lookup?_insert (name other : String) (value : Setting) (es : List (String × Setting)) :
    lookup? other (insert name value es) =
      if name = other then some value else lookup? other es := by
  induction es with
  | nil => simp [insert, lookup?]
  | cons e rest ih =>
    obtain ⟨k, v⟩ := e
    by_cases hk : k = name
    · subst hk; by_cases ho : k = other <;> simp [insert, lookup?, ho]
    · by_cases ho : k = other
      · subst ho; simp [insert, lookup?, hk, Ne.symm hk]
      · simp [insert, lookup?, hk, ho, ih]

def get? (name : String) (s : Setting) : Option Setting := lookup? name s.entries

mutual

/-- A value laid over an older one. -/
def layer : (new old : Setting) → Setting
  | table new, old => layerEntries new old
  | new, _ => new

/-- Entries laid over an older value, which becomes a table with the first one. -/
def layerEntries : List (String × Setting) → Setting → Setting
  | [], old => old
  | entry :: rest, old => layerEntries rest (table (layerEntry entry old.entries))

def layerEntry : String × Setting → List (String × Setting) → List (String × Setting)
  | (name, value), es =>
    let name := lowerName name
    insert name (value.layer ((lookup? name es).getD (table []))) es

end

/-- Change the item at an index. The list grows at its end for an index past it, and at
its start for one before it. -/
def changeItem (index : Int) (change : Setting → Setting) (old : Setting) : Setting :=
  let items := match old with
    | list items => items
    | _ => []
  let place := items.length + index
  if 0 ≤ index then
    let items := items ++ List.replicate (index.toNat + 1 - items.length) nothing
    list (items.modify index.toNat change)
  else if 0 ≤ place then list (items.modify place.toNat change)
  else list ((List.replicate (-place).toNat nothing ++ items).modify 0 change)

/-- A value laid over the one at the end of a path. -/
def layerAt : (path : List Step) → (new old : Setting) → Setting
  | [], new, old => new.layer old
  | [.name name], new, old => table (layerEntry (name, new) old.entries)
  | .name name :: path, new, old =>
    let name := lowerName name
    table (insert name (layerAt path new ((lookup? name old.entries).getD nothing)) old.entries)
  | [.item index], new, old => changeItem index (fun _ => new) old
  | .item index :: path, new, old => changeItem index (layerAt path new) old

/-- Settings of a source, by key, laid over the ones before. -/
def layerKeys (source : List (String × Setting)) (old : Setting) : Setting :=
  source.foldl (fun old (key, value) => layerAt (pathOf key) value old) old

/-- The text of a value where a text is asked for: numbers and truth values are
written out. -/
def text? : Setting → Option String
  | text s => some s
  | flag b => some (if b then "true" else "false")
  | int n => some (toString n)
  | float x => some (x.render Double.plainStyle)
  | _ => none

mutual

/-- The value that JSON denotes. Whole numbers beyond 64 bits are rounded. -/
def ofJson : Json → Setting
  | .null => nothing
  | .bool b => flag b
  | .int n => if Number.fitsInt64 n then int n else float (.ofInt n)
  | .float x => float x
  | .string s => text s
  | .array items => list (ofItems items)
  | .object fields => table (ofFields fields)

def ofItems : List Json → List Setting
  | [] => []
  | item :: rest => ofJson item :: ofItems rest

def ofFields : List (String × Json) → List (String × Setting)
  | [] => []
  | field :: rest => ofField field :: ofFields rest

def ofField : String × Json → String × Setting
  | (name, value) => (name, ofJson value)

end

end Setting

end TaskDialogue
