import TaskDialogue.Settings.Setting
import TaskDialogue.Settings.Toml.Number

/-!
# Tables of a TOML document

A table comes into being under a header, because a header names one inside it, because
a dotted key does, or as a value in braces. A header may take a table that only another
header implied; dotted keys may only add to tables that dotted keys made. Every other
second definition is refused. A table whose first key is the one kept for moments stands
for the moment that its value writes.
-/
namespace TaskDialogue.Toml

/-- What brought a table into being. -/
inductive Origin where
  | header
  | implied
  | dotted
  | braces
deriving DecidableEq, Repr

inductive Item where
  /-- A text, a number or a truth value. -/
  | plain (s : Setting)
  | moment (text : String)
  | list (items : List Item)
  | table (origin : Origin) (entries : List (String × Item))
  /-- The tables of a repeated header, in order. -/
  | rows (rows : List (List (String × Item)))

/-- The entries of a table by key, in order of definition. -/
abbrev Entries := List (String × Item)

namespace Entries

def find? (key : String) : Entries → Option Item
  | [] => none
  | (k, item) :: rest => if k = key then some item else find? key rest

/-- Set the item of a key: in its place, or at the end when the key is new. -/
def set (key : String) (item : Item) : Entries → Entries
  | [] => [(key, item)]
  | (k, old) :: rest => if k = key then (k, item) :: rest else (k, old) :: set key item rest

theorem find?_set (key other : String) (item : Item) (es : Entries) :
    find? other (set key item es) = if key = other then some item else find? other es := by
  induction es with
  | nil => simp [set, find?]
  | cons e rest ih =>
    obtain ⟨k, v⟩ := e
    by_cases hk : k = key
    · subst hk; by_cases ho : k = other <;> simp [set, find?, ho]
    · by_cases ho : k = other
      · subst ho; simp [set, find?, hk, Ne.symm hk]
      · simp [set, find?, hk, ho, ih]

def erase (key : String) : Entries → Entries
  | [] => []
  | (k, item) :: rest => if k = key then rest else (k, item) :: erase key rest

/-- Define a value under keys with points between them, the last of them `key`. -/
def define? (key : String) (value : Item) : (path : List String) → Entries → Option Entries
  | [], es => if (find? key es).isSome then none else some (set key value es)
  | name :: path, es =>
    match find? name es with
    | none => (define? key value path []).map fun sub => set name (.table .dotted sub) es
    | some (.table .dotted sub) =>
      (define? key value path sub).map fun sub => set name (.table .dotted sub) es
    | some (.table .implied sub) =>
      if path.isEmpty then none
      else (define? key value path sub).map fun sub => set name (.table .implied sub) es
    | some (.rows rows) =>
      if path.isEmpty then none
      else (define? key value path (rows.getLast?.getD [])).map fun row =>
        set name (.rows (rows.dropLast ++ [row])) es
    | some _ => none

/-- Change the table that a header's path names. Of repeated tables the last one is
meant, and a table that is not there is implied. -/
def within? (change : Entries → Option Entries) : (path : List String) → Entries → Option Entries
  | [], es => change es
  | name :: path, es =>
    match find? name es with
    | none => (within? change path []).map fun sub => set name (.table .implied sub) es
    | some (.table .braces _) => none
    | some (.table origin sub) =>
      (within? change path sub).map fun sub => set name (.table origin sub) es
    | some (.rows rows) =>
      (within? change path (rows.getLast?.getD [])).map fun row =>
        set name (.rows (rows.dropLast ++ [row])) es
    | some _ => none

/-- Open the table of a header. It comes after the tables that are open already, also if
it was implied before. -/
def openTable? (key : String) (es : Entries) : Option Entries :=
  match find? key es with
  | none => some (set key (.table .header []) es)
  | some (.table .implied sub) => some (set key (.table .header sub) (erase key es))
  | some _ => none

/-- Open another table of a repeated header. -/
def openRow? (key : String) (es : Entries) : Option Entries :=
  match find? key es with
  | none => some (set key (.rows [[]]) es)
  | some (.rows rows) => some (set key (.rows (rows ++ [[]])) es)
  | some _ => none

end Entries

/-- The key that makes a moment of a table. -/
def momentKey : String := "$__toml_private_datetime"

def momentSetting? : Item → Option Setting
  | .plain (.text s) => (momentOf? s.toList).map fun cs => .text (String.ofList cs)
  | _ => none

mutual

def Item.setting? : Item → Option Setting
  | .plain s => some s
  | .moment s => some (.text s)
  | .list items => (itemSettings? items).map .list
  | .table _ entries => tableSetting? entries
  | .rows rows => (rowSettings? rows).map .list

def itemSettings? : List Item → Option (List Setting)
  | [] => some []
  | item :: rest => do return (← item.setting?) :: (← itemSettings? rest)

def rowSettings? : List (List (String × Item)) → Option (List Setting)
  | [] => some []
  | row :: rest => do return (← tableSetting? row) :: (← rowSettings? rest)

def tableSetting? : List (String × Item) → Option Setting
  | [] => some (.table [])
  | entry :: rest =>
    if entry.1 = momentKey then momentSetting? entry.2
    else do return .table ((← entrySetting? entry) :: (← entrySettings? rest))

def entrySettings? : List (String × Item) → Option (List (String × Setting))
  | [] => some []
  | entry :: rest => do return (← entrySetting? entry) :: (← entrySettings? rest)

def entrySetting? : String × Item → Option (String × Setting)
  | (key, item) => item.setting?.map (key, ·)

end

end TaskDialogue.Toml
