import TaskDialogue.Proofs.Conversation.Replay
import TaskDialogue.Proofs.Store.Variables
import TaskDialogue.Proofs.Turn.Effects

/-!
# What is reported as completed

A variable is completed when the object that it is bound to is performed. It stays completed
when it is bound anew, and then nothing tells that its new object was never performed. A turn
binds only its own variable, so this takes two turns with one index: a follow-up turn that
has taken the index of a later turn of the transcript.
-/
namespace TaskDialogue

namespace Executor

/-- What turns perform, in order. -/
def performances (x : Executor) : List (Nat × String) → State → List TaskRef
  | [], _ => []
  | (turn, text) :: rest, s =>
    (x.performance? turn text s).toList ++ x.performances rest (x.execute turn text s).2

/-- One of the turns gives another value to a variable that was completed before it. -/
def Rebinds (x : Executor) (v : String) : List (Nat × String) → State → Prop
  | [], _ => False
  | (turn, text) :: rest, s =>
    (v ∈ s.completed ∧ (x.execute turn text s).2.find? v ≠ s.find? v) ∨
      x.Rebinds v rest (x.execute turn text s).2

variable {x : Executor} {v : String} {lines : List (Nat × String)} {s t : State}
  {results : List ActionResult}

theorem completed_executeAll (h : x.executeAll lines s = (.ok results, t)) (hv : v ∈ s.completed) :
    v ∈ t.completed := by
  induction lines generalizing s results with
  | nil =>
    simp only [executeAll, Prod.mk.injEq] at h
    exact h.2 ▸ hv
  | cons line lines ih =>
    obtain ⟨rest, hrest⟩ := executeAll_cons h
    exact ih hrest (completed_execute_mono hv)

/-- What is bound anew was completed, and stays so. -/
theorem completed_of_rebinds (h : x.executeAll lines s = (.ok results, t))
    (hv : x.Rebinds v lines s) : v ∈ t.completed := by
  induction lines generalizing s results with
  | nil => exact hv.elim
  | cons line lines ih =>
    obtain ⟨rest, hrest⟩ := executeAll_cons h
    obtain ⟨hcompleted, -⟩ | hlater := hv
    · exact completed_executeAll hrest (completed_execute_mono hcompleted)
    · exact ih hrest hlater

/-- What a variable is completed for was performed, unless the variable is bound anew. The
invariant is that this held so far, and that only what was performed has results. -/
theorem completed_performed (log : List TaskRef) (h : x.executeAll lines s = (.ok results, t))
    (hlog : v ∈ s.completed → ∃ id, s.find? v = some (.object id) ∧ ⟨id, none⟩ ∈ log)
    (hresults : ∀ id, (s.object id).resultCount ≠ 0 → ⟨id, none⟩ ∈ log)
    (hkept : ¬x.Rebinds v lines s) (hv : v ∈ t.completed) :
    ∃ id, t.find? v = some (.object id) ∧ ⟨id, none⟩ ∈ log ++ x.performances lines s := by
  induction lines generalizing s results log with
  | nil =>
    simp only [executeAll, Prod.mk.injEq] at h
    rw [← h.2] at hv ⊢
    simpa [performances] using hlog hv
  | cons line lines ih =>
    obtain ⟨turn, text⟩ := line
    obtain ⟨rest, hrest⟩ := executeAll_cons h
    simp only [Rebinds, not_or, not_and, Decidable.not_not] at hkept
    rw [performances, ← List.append_assoc]
    refine ih _ hrest ?_ ?_ hkept.2
    · intro hv
      obtain hbefore | ⟨target, htarget, hfind, hwhole⟩ := completed_execute hv
      · obtain ⟨id, hfind, hid⟩ := hlog hbefore
        exact ⟨id, by rw [hkept.1 hbefore, hfind], List.mem_append_left _ hid⟩
      · refine ⟨target.id, hfind, ?_⟩
        obtain hwhole | hfound := hwhole
        · obtain ⟨id, entity⟩ := target
          subst hwhole
          simp [htarget]
        · exact List.mem_append_left _ (hresults _ hfound)
    · intro id hid
      obtain hbefore | hnow := resultCount_execute hid
      · exact List.mem_append_left _ (hresults id hbefore)
      · simp [hnow]

/-- A variable that is bound anew belongs to two turns. The invariant is that what was
completed is bound, and that what is bound belongs to a turn that was executed. -/
theorem two_turns_of_rebinds (turns : List Nat)
    (hcompleted : ∀ v ∈ s.completed, (s.find? v).isSome)
    (hbound : ∀ v, (s.find? v).isSome → ∃ k ∈ turns, v = varName k) (hv : x.Rebinds v lines s) :
    ∃ k, v = varName k ∧ 2 ≤ (turns ++ lines.map (·.1)).count k := by
  induction lines generalizing s turns with
  | nil => exact hv.elim
  | cons line lines ih =>
    obtain ⟨turn, text⟩ := line
    obtain ⟨hbefore, hchanged⟩ | hlater := hv
    · obtain ⟨k, hk, rfl⟩ := hbound v (hcompleted v hbefore)
      obtain hsame | ⟨hturn, -⟩ := find?_execute x turn text s (varName k)
      · exact absurd hsame hchanged
      · have hcount := List.count_pos_iff.mpr hk
        refine ⟨k, rfl, ?_⟩
        rw [List.map_cons, List.count_append, varName_injective hturn, List.count_cons_self]
        rw [varName_injective hturn] at hcount
        omega
    · have h := ih (turns ++ [turn]) ?_ ?_ hlater
      · simpa using h
      · intro w hw
        obtain hsome | hnow := completed_execute hw
        · obtain hsame | ⟨-, hsome⟩ := find?_execute x turn text s w
          · rw [hsame]
            exact hcompleted w hsome
          · exact hsome
        · obtain ⟨_, -, hfind, -⟩ := hnow
          rw [hfind]
          rfl
      · intro w hw
        obtain hsame | ⟨hturn, -⟩ := find?_execute x turn text s w
        · obtain ⟨k, hk, rfl⟩ := hbound w (hsame ▸ hw)
          exact ⟨k, List.mem_append_left _ hk, rfl⟩
        · exact ⟨turn, by simp, hturn⟩

end Executor

namespace Conversation

variable {c : Conversation}

/-- Without follow-up turns, the lines of a conversation are among those of the transcript. -/
theorem lines_run (hoff : c.autoFollowUp = false) (turns : List Turn) :
    ((c.run turns).lines.map (·.1)).Sublist (c.lines.map (·.1) ++ turns.filterMap Turn.index?) := by
  induction turns generalizing c with
  | nil => simp [run]
  | cons turn turns ih =>
    have hrun : c.run (turn :: turns) = (c.push turn).2.run turns := rfl
    rw [hrun]
    cases hline : turn.program? with
    | none =>
      have hpush : (c.push turn).2 = c.say turn := by simp only [push, hline]
      rw [hpush]
      have h := ih (c := c.say turn) hoff
      rw [lines_say hline] at h
      simpa [Turn.index?, hline] using h
    | some line =>
      have hpush : (c.push turn).2 = (c.attempt turn line).2 := by
        rw [push_of_program? hline]
        cases (c.attempt turn line).1 <;> simp [hoff]
      rw [hpush]
      have h := ih (c := (c.attempt turn line).2) (by simpa using hoff)
      have hindex : turn.index? = some line.index := by simp [Turn.index?, hline]
      rw [List.filterMap_cons, hindex]
      obtain hsame | hmore := lines_attempt (c := c) hline
      · rw [hsame] at h
        exact h.trans (.append_left (List.sublist_cons_self ..) _)
      · rw [hmore] at h
        simpa [ProgramTurn.line] using h

/-- What is completed when a transcript has been run. Without follow-up turns no completed
variable is bound anew; with them one that is belongs to two turns. A completed variable that
is not bound anew is bound to something that was performed while it asked for nothing more.
A variable of a task that was never performed is reported as incomplete exactly when it was
not bound anew after it was completed. -/
theorem completed_run (x : Executor) (context : AppContext) (autoFollowUp : Bool)
    (turns : List Turn) (h : (turns.filterMap Turn.index?).Pairwise (· < ·)) :
    let first := State.new context
    let c := (start x first autoFollowUp).run turns
    (autoFollowUp = false → ∀ v, ¬x.Rebinds v c.lines first) ∧
      (∀ v, x.Rebinds v c.lines first →
        ∃ k, v = varName k ∧ 2 ≤ (c.lines.map (·.1)).count k) ∧
      (∀ v ∈ c.state.completed, ¬x.Rebinds v c.lines first →
        ∃ id, c.state.find? v = some (.object id) ∧
          ⟨id, none⟩ ∈ x.performances c.lines first) ∧
      ∀ v id, c.state.find? v = some (.object id) →
        ⟨id, none⟩ ∉ x.performances c.lines first →
          (v ∈ c.state.incomplete ↔ ¬x.Rebinds v c.lines first) := by
  intro first c
  have hrun : x.executeAll c.lines first = (.ok (c.successes.map (·.2)), c.state) :=
    ((replays_start x first autoFollowUp).feedAll [.transcript turns]).run
  have htwice : ∀ v, x.Rebinds v c.lines first →
      ∃ k, v = varName k ∧ 2 ≤ (c.lines.map (·.1)).count k := fun v hv =>
    Executor.two_turns_of_rebinds [] (by simp [first, State.new])
      (by simp [first, State.new, State.find?, State.findIn]) hv
  have hperformed : ∀ v ∈ c.state.completed, ¬x.Rebinds v c.lines first →
      ∃ id, c.state.find? v = some (.object id) ∧ ⟨id, none⟩ ∈ x.performances c.lines first :=
    fun v hv hkept => Executor.completed_performed [] hrun (by simp [first, State.new])
      (by simp [first, State.new, State.object, TaskObject.resultCount]) hkept hv
  refine ⟨?_, htwice, hperformed, ?_⟩
  · intro hoff v hv
    obtain ⟨k, -, hcount⟩ := htwice v hv
    have hlines := lines_run (c := start x first autoFollowUp) hoff turns
    have hnodup : (turns.filterMap Turn.index?).Nodup := h.imp Nat.ne_of_lt
    have hle := hlines.count_le k
    have hone := List.nodup_iff_count.mp hnodup k
    have hstart : (start x first autoFollowUp).lines = [] := rfl
    rw [hstart] at hle
    have hc : (c.lines.map (·.1)).count k ≤ (turns.filterMap Turn.index?).count k := hle
    omega
  · intro v id hfind hnever
    rw [State.mem_incomplete]
    constructor
    · intro hincomplete hv
      exact hincomplete.1 (Executor.completed_of_rebinds hrun hv)
    · intro hkept
      refine ⟨fun hv => ?_, id, hfind⟩
      obtain ⟨other, hother, hmem⟩ := hperformed v hv hkept
      rw [hfind, Option.some.injEq, Value.object.injEq] at hother
      exact hnever (hother ▸ hmem)

/-- An alarm that is set, and one that is not. -/
theorem completed_run_alarms :
    let turns : List Turn := [.program ⟨0, "create_alarm()"⟩, .program ⟨1, "create_alarm()"⟩,
      .program ⟨2, "x0.time = \"8:30\""⟩]
    let first := State.new .empty
    let c := (start alarms first false).run turns
    (turns.filterMap Turn.index?).Pairwise (· < ·) ∧
      c.state.completed = ["x0"] ∧ "x1" ∈ c.state.incomplete ∧
      (false = false → ∀ v, ¬alarms.Rebinds v c.lines first) ∧
      (∀ v, alarms.Rebinds v c.lines first →
        ∃ k, v = varName k ∧ 2 ≤ (c.lines.map (·.1)).count k) ∧
      (∀ v ∈ c.state.completed, ¬alarms.Rebinds v c.lines first →
        ∃ id, c.state.find? v = some (.object id) ∧
          ⟨id, none⟩ ∈ alarms.performances c.lines first) ∧
      ∀ v id, c.state.find? v = some (.object id) →
        ⟨id, none⟩ ∉ alarms.performances c.lines first →
          (v ∈ c.state.incomplete ↔ ¬alarms.Rebinds v c.lines first) := by
  have hstate : let c := (start alarms (.new .empty) false).run [.program ⟨0, "create_alarm()"⟩,
      .program ⟨1, "create_alarm()"⟩, .program ⟨2, "x0.time = \"8:30\""⟩]
      c.state.completed = ["x0"] ∧ "x1" ∉ c.state.completed ∧
        c.state.find? "x1" = some (.object 1) := by
    decide +kernel
  exact ⟨by decide, hstate.1, State.mem_incomplete.mpr ⟨hstate.2.1, 1, hstate.2.2⟩,
    completed_run alarms .empty false _ (by decide)⟩

/-- The hint for the first alarm takes the index of the second, which is never performed: its
variable is completed all the same, and it is not reported as incomplete. -/
theorem completed_run_collision :
    let turns : List Turn := [.program ⟨0, "create_alarm()"⟩, .program ⟨1, "create_alarm()"⟩]
    let first := State.new .empty
    let c := (start alarms first true).run turns
    (turns.filterMap Turn.index?).Pairwise (· < ·) ∧
      (¬∀ v ∈ c.state.completed, ∃ id, c.state.find? v = some (.object id) ∧
        ⟨id, none⟩ ∈ alarms.performances c.lines first) ∧
      (c.state.command? "x1").map Command.name = some "create_alarm" ∧
      "x1" ∉ c.state.incomplete := by
  intro turns first c
  obtain ⟨hcompleted, hfind, hnever, hcommand⟩ : "x1" ∈ c.state.completed ∧
      c.state.find? "x1" = some (.object 2) ∧
      ⟨2, none⟩ ∉ alarms.performances c.lines first ∧
      (c.state.command? "x1").map Command.name = some "create_alarm" := by
    decide +kernel
  refine ⟨by decide, fun h => ?_, hcommand, fun h => ?_⟩
  · obtain ⟨id, hid, hmem⟩ := h "x1" hcompleted
    rw [hfind, Option.some.injEq, Value.object.injEq] at hid
    exact hnever (hid ▸ hmem)
  · exact (State.mem_incomplete.mp h).1 hcompleted

end Conversation

end TaskDialogue
