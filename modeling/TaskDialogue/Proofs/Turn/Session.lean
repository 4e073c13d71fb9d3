import TaskDialogue.Proofs.Turn.Agreement

/-!
# Sessions of turns

A session executes turns one after another and keeps the state of each, also of one that
failed. States may be set aside, and taken up again later: the store of the session then
shrinks to what it was. In all of this nothing is ever named that is not there.
-/
namespace TaskDialogue

/-- The state of a session, and the states that were set aside, the last first. -/
structure Session where
  state : State
  kept : List State

namespace Session

/-- What is done in a session. -/
inductive Step where
  | turn (index : Nat) (text : String)
  /-- Set the state aside. -/
  | keep
  /-- Take up a state that was set aside, if there is one at this place. -/
  | restore (place : Nat)

def start (context : AppContext) : Session := ⟨.new context, []⟩

def step (x : Executor) (d : Session) : Step → Session
  | .turn index text => { d with state := (x.execute index text d.state).2 }
  | .keep => { d with kept := d.state :: d.kept }
  | .restore place => { d with state := d.kept.getD place d.state }

def run (x : Executor) (d : Session) (steps : List Step) : Session := steps.foldl (step x) d

/-- The state of the session and all that were set aside are closed. -/
structure Closed (d : Session) : Prop where
  state : d.state.Closed
  kept : ∀ s ∈ d.kept, s.Closed

variable {x : Executor} {d : Session}

theorem closed_start {context : AppContext} (h : context.Literal) : (start context).Closed :=
  ⟨State.closed_new h, by simp [start]⟩

/-- What every turn keeps holds all through a session, of its state and of all that were set
aside. -/
theorem run_preserves {P : State → Prop}
    (turn : ∀ index text s, P s → P (x.execute index text s).2) (hstate : P d.state)
    (hkept : ∀ s ∈ d.kept, P s) (steps : List Step) :
    P (d.run x steps).state ∧ ∀ s ∈ (d.run x steps).kept, P s := by
  induction steps generalizing d with
  | nil => exact ⟨hstate, hkept⟩
  | cons action rest ih =>
    cases action with
    | turn index text => exact ih (turn index text d.state hstate) hkept
    | keep => exact ih hstate (List.forall_mem_cons.mpr ⟨hstate, hkept⟩)
    | restore place =>
      have hrestored : P (d.kept.getD place d.state) := by
        rw [List.getD_eq_getElem?_getD]
        cases hs : d.kept[place]? with
        | none => exact hstate
        | some s => exact hkept s (List.mem_of_getElem? hs)
      exact ih hrestored hkept

/-- What every turn keeps holds of the state of a session that begins where it holds. -/
theorem state_run {P : State → Prop} (turn : ∀ index text s, P s → P (x.execute index text s).2)
    {s : State} (hs : P s) (steps : List Step) : P (run x ⟨s, []⟩ steps).state :=
  (run_preserves turn hs (List.forall_mem_nil _) steps).1

theorem Closed.run (h : d.Closed) (steps : List Step) : (d.run x steps).Closed := by
  have hturn : ∀ index text s, State.Closed s → (x.execute index text s).2.Closed :=
    fun index text s hs => (Exec.closed_turn x.registry).execute index text hs
  obtain ⟨hstate, hkept⟩ := run_preserves hturn h.state h.kept steps
  exact ⟨hstate, hkept⟩

/-- Whatever is done in a session over records that name no objects, its state names nothing
beyond its store, what a turn may act on is there, and a turn of any text looks for nothing
that is not there. -/
theorem run_closed (x : Executor) {context : AppContext} (h : context.Literal)
    (steps : List Step) :
    let s := ((start context).run x steps).state
    (∀ o ∈ s.objects, Below s.objects.length o.ids) ∧
      (∀ b ∈ s.bindings, Below s.objects.length b.2.ids) ∧
      (∀ var index target, s.resolve var index = .ok target → s.Has target) ∧
      ∀ turn text, x.execute? turn text s = some (x.execute turn text s) := by
  have hclosed := ((closed_start h).run (x := x) steps).state
  exact ⟨hclosed.objects, hclosed.bindings, fun _ _ _ htarget => State.resolve_has hclosed htarget,
    fun turn text => x.execute?_eq turn text hclosed⟩

/-- A search that finds a record, a turn that fails, and the search taken up again. -/
theorem run_closed_hotels :
    let hotels : AppContext := ⟨[("Hotel", [⟨"Hotel", [("name", .str "Ritz")]⟩])]⟩
    let x : Executor :=
      ⟨.ofSchemas [.query ⟨"Hotel", [("name", .str)]⟩], Sugar.defaults, .defaults⟩
    let s := ((start hotels).run x
      [.turn 0 "find_hotel()", .keep, .turn 1 "x0.stars", .restore 0]).state
    hotels.Literal ∧
      (∀ o ∈ s.objects, Below s.objects.length o.ids) ∧
      (∀ b ∈ s.bindings, Below s.objects.length b.2.ids) ∧
      (∀ var index target, s.resolve var index = .ok target → s.Has target) ∧
      ∀ turn text, x.execute? turn text s = some (x.execute turn text s) := by
  intro hotels x
  have h : hotels.Literal := by
    intro kind e he
    by_cases hkind : "Hotel" = kind
    · have he : e = ⟨"Hotel", [("name", .str "Ritz")]⟩ := by
        simpa [hotels, AppContext.records, AppContext.recordsIn, hkind] using he
      subst he
      rfl
    · simp [hotels, AppContext.records, AppContext.recordsIn, hkind] at he
  exact ⟨h, run_closed x h _⟩

end Session

end TaskDialogue
