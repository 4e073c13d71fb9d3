import TaskDialogue.Task.Entity

/-!
# The application's records

Queries find their results here. The records of an entity keep the order in which
they came.
-/
namespace TaskDialogue

/-- The records of each entity. -/
structure AppContext where
  tables : List (String × List Entity)
deriving DecidableEq, Inhabited

namespace AppContext

def empty : AppContext := ⟨[]⟩

/-- The records of a kind in a list of tables. -/
def recordsIn (kind : String) : List (String × List Entity) → List Entity
  | [] => []
  | (k, records) :: rest => if k = kind then records else recordsIn kind rest

/-- Put a record at the end of its table, which is made when it is missing. -/
def addTo (kind : String) (record : Entity) : List (String × List Entity) → List (String × List Entity)
  | [] => [(kind, [record])]
  | (k, records) :: rest =>
    if k = kind then (k, records ++ [record]) :: rest else (k, records) :: addTo kind record rest

/-- The records of an entity; an unknown entity has none. -/
def records (context : AppContext) (kind : String) : List Entity := recordsIn kind context.tables

/-- The context with one more record, under its kind. -/
def insert (context : AppContext) (record : Entity) : AppContext :=
  ⟨addTo record.kind record context.tables⟩

theorem recordsIn_addTo (kind other : String) (record : Entity)
    (tables : List (String × List Entity)) :
    recordsIn other (addTo kind record tables) =
      if kind = other then recordsIn other tables ++ [record] else recordsIn other tables := by
  induction tables with
  | nil => by_cases h : kind = other <;> simp [addTo, recordsIn, h]
  | cons t rest ih =>
    obtain ⟨k, records⟩ := t
    by_cases hk : k = kind
    · subst hk
      by_cases ho : k = other <;> simp [addTo, recordsIn, ho]
    · by_cases ho : k = other
      · subst ho; simp [addTo, recordsIn, hk, Ne.symm hk]
      · simp [addTo, recordsIn, hk, ho, ih]

/-- A record goes to the end of its kind's records and no other records change. -/
theorem records_insert (context : AppContext) (record : Entity) (kind : String) :
    (context.insert record).records kind =
      if record.kind = kind then context.records kind ++ [record] else context.records kind :=
  recordsIn_addTo _ _ _ _

def toJson (context : AppContext) : Json :=
  .object [("records", .object (context.tables.map fun t => (t.1, .array (t.2.map Entity.toJson))))]

end AppContext

end TaskDialogue
