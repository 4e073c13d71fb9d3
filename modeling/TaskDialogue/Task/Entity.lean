import TaskDialogue.Task.Value

/-!
# Entities

An entity is a record of a kind. Its attribute values may change, its attribute
names never do; of several attributes with one name the first counts.
-/
namespace TaskDialogue

/-- A record with named attributes. -/
structure Entity where
  kind : String
  attributes : List (String × Value)
deriving DecidableEq, Inhabited

namespace Entity

/-- The first attribute of a name. -/
def find? (attr : String) : List (String × Value) → Option Value
  | [] => none
  | (name, value) :: rest => if name = attr then some value else find? attr rest

/-- Give the first attribute of a name another value. -/
def replace (attr : String) (value : Value) : List (String × Value) → List (String × Value)
  | [] => []
  | (name, old) :: rest =>
    if name = attr then (name, value) :: rest else (name, old) :: replace attr value rest

@[simp] theorem replace_names (attr : String) (value : Value) (attributes : List (String × Value)) :
    (replace attr value attributes).map (·.1) = attributes.map (·.1) := by
  induction attributes with
  | nil => rfl
  | cons a rest ih =>
    obtain ⟨name, old⟩ := a
    by_cases h : name = attr <;> simp [replace, h, ih]

theorem find?_replace (attr other : String) (value : Value) (attributes : List (String × Value)) :
    find? other (replace attr value attributes) =
      if attr = other then (find? attr attributes).map fun _ => value
      else find? other attributes := by
  induction attributes with
  | nil => by_cases h : attr = other <;> simp [replace, find?, h]
  | cons a rest ih =>
    obtain ⟨name, old⟩ := a
    by_cases hn : name = attr
    · subst hn
      by_cases ho : name = other <;> simp [replace, find?, ho]
    · by_cases ho : name = other
      · subst ho
        simp [replace, find?, hn, Ne.symm hn]
      · by_cases ha : attr = other
        · subst ha
          simpa [replace, find?, hn] using ih
        · simpa [replace, find?, hn, ho, ha] using ih

def get? (e : Entity) (attr : String) : Option Value := find? attr e.attributes

/-- The entity with the first attribute of a name changed, if there is one. -/
def set? (e : Entity) (attr : String) (value : Value) : Option Entity :=
  (e.get? attr).map fun _ => { e with attributes := replace attr value e.attributes }

/-- Kind and attributes; those without a value are left out. -/
def display (e : Entity) : String :=
  e.kind ++ " with" ++ String.join (e.attributes.map fun a =>
    if a.2.isNone then "" else " " ++ a.1 ++ " " ++ a.2.display)

def toJson (e : Entity) : Json :=
  .object [("kind", .string e.kind),
    ("attributes", .array (e.attributes.map fun a => .array [.string a.1, a.2.toJson]))]

def pair? (inner : Bool) : Json → Option (String × Value)
  | .array [name, value] => do return (← name.string?, ← Value.ofJson? inner value)
  | _ => none

/-- The entity that a JSON value describes; `inner` says that it stands within a variant
of something else. -/
def ofJson? (inner : Bool) (j : Json) : Option Entity := do
  let [some kind, some attributes] ← j.record? ["kind", "attributes"] | none
  return ⟨← kind.string?, ← (← attributes.array?).mapM (pair? inner)⟩

end Entity

end TaskDialogue
