import TaskDialogue.Proofs.Conversation.Replay

/-!
# Turns in sequence

Turns are executed one after another, each from where the one before it ended, also when that
one failed. What a single turn keeps holds after all of them. Where no turn fails this is the
execution that stops at the first failure.
-/
namespace TaskDialogue.Executor

/-- The state after turns in order, also past those that fail. -/
def after (x : Executor) (lines : List (Nat × String)) (s : State) : State :=
  lines.foldl (fun s line => (x.execute line.1 line.2 s).2) s

/-- How each turn ends: its result or error, and the state that it leaves. -/
def trace (x : Executor) : List (Nat × String) → State → List (Except ExecError ActionResult × State)
  | [], _ => []
  | (turn, text) :: rest, s => x.execute turn text s :: x.trace rest (x.execute turn text s).2

variable {x : Executor} {s : State}

@[simp] theorem after_cons (turn : Nat) (text : String) (rest : List (Nat × String)) :
    x.after ((turn, text) :: rest) s = x.after rest (x.execute turn text s).2 := rfl

theorem after_append (first rest : List (Nat × String)) :
    x.after (first ++ rest) s = x.after rest (x.after first s) :=
  List.foldl_append

/-- What every turn keeps holds after turns of any number. -/
theorem after_preserves {P : State → Prop}
    (turn : ∀ index text s, P s → P (x.execute index text s).2) (hs : P s)
    (lines : List (Nat × String)) : P (x.after lines s) := by
  induction lines generalizing s with
  | nil => exact hs
  | cons line rest ih => exact ih (turn line.1 line.2 s hs)

/-- Lines that all succeed end where the turns do. -/
theorem after_of_executeAll {lines : List (Nat × String)} {t : State} {results : List ActionResult}
    (h : x.executeAll lines s = (.ok results, t)) : x.after lines s = t := by
  induction lines generalizing s results with
  | nil => exact (Prod.mk.inj h).2
  | cons line rest ih =>
    obtain ⟨turn, text⟩ := line
    obtain ⟨results, hrest⟩ := executeAll_cons h
    exact ih hrest

end TaskDialogue.Executor
