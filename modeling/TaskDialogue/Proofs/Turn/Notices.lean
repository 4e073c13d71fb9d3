import TaskDialogue.Proofs.Store.Notes
import TaskDialogue.Proofs.Turn.Closure
import TaskDialogue.Proofs.Turn.Extension
import TaskDialogue.Proofs.Turn.Frame
import TaskDialogue.Proofs.Turn.Steps

/-!
# Notices of followed recommendations

A turn with the follow marker tells the command of the recommendation that is outstanding before the
turn, once, and no other turn tells a command anything. What the turn makes, binds, writes to and
performs does not add to the notes, drop them or move them to another command, also when the task
that is told is the one that the turn is on.
-/
namespace TaskDialogue

/-- In a closed state every recommendation is for an object of the store. -/
theorem State.Closed.anchored {s : State} (h : s.Closed) : s.Anchored := by
  intro id name hrecommended
  obtain ⟨_, _, -, hfind, -⟩ := State.recommended?_eq_some.mp hrecommended
  exact Value.below_object? (h.find? hfind) rfl

namespace Exec

/-- A call leaves the notes of every command as they are, however it ends. -/
theorem told_runKind {var : String} {kind : CallKind} {s : State} (index : Nat)
    (hassigned : ∀ id, kind = .command id true → s.find? var = some (.object id)) (id : Nat) :
    (s.object id).Told [] ((runKind var index kind s).2.object id) := by
  refine runKind_preserves (P := fun t => (s.object id).Told [] (t.object id)) ?_ ?_ ?_ ?_ index
    hassigned (.refl _)
  · intro t u ht hobjects
    have hsame : u.object id = t.object id := by simp only [State.object, hobjects]
    rwa [hsame]
  · intro t e ht
    rw [State.object_alloc]
    split
    · next hid =>
      rw [State.object_of_le (Nat.le_of_eq hid.symm)] at ht
      cases hobject : s.object id with
      | command c =>
        rw [hobject] at ht
        cases ht
      | entity _ => exact .entity
    · exact ht
  · intro t _ _ target changed _ hwritten ht
    exact ht.trans (State.told_setTask hwritten.told id)
  · intro t _ target output changed _ _ hperform ht
    exact ht.trans (State.told_setTask (TaskObject.told_perform hperform) id)

end Exec

namespace Executor

/-- The notice that a turn text gives: when it carries the marker, to the command of the
recommendation that is pending. -/
def notice? (x : Executor) (text : String) (s : State) : Option (Nat × String) :=
  if x.follows text then s.pending? else none

/-- The notices of turns, in order. -/
def notices (x : Executor) : List (Nat × String) → State → List (Nat × String)
  | [], _ => []
  | (turn, text) :: rest, s =>
    (x.notice? text s).toList ++ x.notices rest (x.execute turn text s).2

variable {x : Executor} {turn : Nat} {text : String} {lines : List (Nat × String)}
  {results : List ActionResult} {s t : State} {id : Nat} {c : Command}

/-- Objects are told of the recommendation of before the turn, those that the turn makes as well. -/
theorem told_call (h : x.call? turn text s ≠ none) :
    ∃ w, Exec.Makes (Command.Built x.registry) s w ∧ ∀ id, (w.object id).Told
      (noticesFor id (if x.follows text then s.recommended? else none).toList)
        ((x.execute turn text s).2.object id) := by
  obtain ⟨⟨call, u⟩, hcall⟩ := Option.ne_none_iff_exists'.mp h
  obtain ⟨w, hmakes, hu, -⟩ := call?_addresses hcall
  refine ⟨w, hmakes, fun id => ?_⟩
  have hrun := Exec.told_runKind call.index (call?_cases hcall).1.assigned id
  have hrecommended : w.recommended? = s.recommended? := by
    rw [hmakes.rest]
    exact State.recommended?_congr rfl rfl
  rw [execute_of_call hcall]
  split at hu
  · next hfollows =>
    have htold := w.told_followRecommendation id
    rw [← hu, hrecommended] at htold
    simpa [hfollows] using htold.trans hrun
  · next hfollows =>
    rw [← hu]
    simpa [hfollows] using hrun

theorem told_execute (h : x.call? turn text s ≠ none) (hid : id < s.objects.length) :
    (s.object id).Told (noticesFor id (x.notice? text s).toList)
      ((x.execute turn text s).2.object id) := by
  obtain ⟨w, hmakes, htold⟩ := told_call h
  have hid' := htold id
  rw [hmakes.object_of_lt hid] at hid'
  cases hobject : s.object id with
  | command c =>
    have hsame : noticesFor id (x.notice? text s).toList =
        noticesFor id (if x.follows text then s.recommended? else none).toList := by
      unfold notice?
      split
      · exact State.noticesFor_pending? hobject
      · rfl
    rwa [hsame, ← hobject]
  | entity e =>
    rw [hobject] at hid'
    exact hid'.of_entity

/-- The notice of a turn is to a command of before the turn. -/
theorem noticesFor_notice? (hid : s.objects.length ≤ id) :
    noticesFor id (x.notice? text s).toList = [] := by
  refine noticesFor_of_le (fun place name hnotice => ?_) hid
  unfold notice? at hnotice
  split at hnotice
  · exact State.pending?_lt hnotice
  · cases hnotice

theorem untold_execute (h : x.call? turn text s ≠ none) (hs : s.Anchored)
    (hid : s.objects.length ≤ id) (hc : (x.execute turn text s).2.object id = .command c) :
    c.followed = [] := by
  obtain ⟨w, hmakes, htold⟩ := told_call h
  have hnone : noticesFor id (if x.follows text then s.recommended? else none).toList = [] := by
    refine noticesFor_of_le (fun place name hnotice => ?_) hid
    split at hnotice
    · exact hs place name hnotice
    · cases hnotice
  have hid' := htold id
  rw [hnone, hc] at hid'
  obtain hsame | ⟨made, hbuilt, -, hobject⟩ := hmakes.object_cases id
  · rw [hsame, State.object_of_le hid] at hid'
    cases hid'
  · rw [hobject] at hid'
    cases hid' with
    | command followed => rw [followed, hbuilt.followed, List.append_nil]

theorem call?_of_executeAll_cons {rest : List (Nat × String)}
    (h : x.executeAll ((turn, text) :: rest) s = (.ok results, t)) :
    x.call? turn text s ≠ none := by
  obtain ⟨result, _, hok, -, -⟩ := executeAll_cons_ok h
  exact call?_ne_none (by rw [hok]; rfl)

/-- By induction on the lines: each line adds its notice to what is told before it. -/
theorem told_executeAll (h : x.executeAll lines s = (.ok results, t))
    (hid : id < s.objects.length) :
    (s.object id).Told (noticesFor id (x.notices lines s)) (t.object id) := by
  induction lines generalizing s results with
  | nil =>
    obtain ⟨-, rfl⟩ := Prod.mk.inj h
    exact .refl _
  | cons line rest ih =>
    obtain ⟨turn, text⟩ := line
    obtain ⟨_, hrest⟩ := executeAll_cons h
    have hlength := length_execute x turn text s
    rw [notices, noticesFor_append]
    exact (told_execute (call?_of_executeAll_cons h) hid).trans (ih hrest (by omega))

theorem untold_executeAll (h : x.executeAll lines s = (.ok results, t))
    (hs : ∀ first, first <+: lines → (x.after first s).Anchored) (hid : s.objects.length ≤ id)
    (hc : t.object id = .command c) : c.followed = noticesFor id (x.notices lines s) := by
  induction lines generalizing s results with
  | nil =>
    obtain ⟨-, rfl⟩ := Prod.mk.inj h
    rw [State.object_of_le hid] at hc
    cases hc
  | cons line rest ih =>
    obtain ⟨turn, text⟩ := line
    obtain ⟨_, hrest⟩ := executeAll_cons h
    rw [notices, noticesFor_append, noticesFor_notice? hid, List.nil_append]
    by_cases hmade : id < (x.execute turn text s).2.objects.length
    · have htold := told_executeAll hrest hmade
      rw [hc] at htold
      cases hobject : (x.execute turn text s).2.object id with
      | entity e =>
        rw [hobject] at htold
        cases htold
      | command made =>
        rw [hobject] at htold
        have hnone : made.followed = [] :=
          untold_execute (call?_of_executeAll_cons h) (hs [] (List.nil_prefix)) hid hobject
        cases htold with
        | command followed => rw [followed, hnone, List.nil_append]
    · refine ih hrest (fun first hfirst => ?_) (Nat.le_of_not_lt hmade)
      exact hs ((turn, text) :: first) (List.cons_prefix_cons.mpr ⟨rfl, hfirst⟩)

/-- In runs from closed states every recommendation is for an object of the store. -/
theorem anchored_after (h : s.Closed) (lines : List (Nat × String)) : (x.after lines s).Anchored :=
  (after_preserves (fun turn text _ hs => (Exec.closed_turn x.registry).execute turn text hs) h
    lines).anchored

/-- Notices are given exactly once. A turn that has a call, whether it fails then or not, tells the
command whose recommendation is pending before it the name of what is recommended when the turn is
marked, and tells no other command anything; what it makes was told nothing. Over lines that all
succeed each command is told the notices to it, in order. That new commands start without notes
takes a recommendation for an object of the store, if it is for an object at all, as it is in every
run from a closed state. -/
theorem notified_once (x : Executor) (s : State) :
    (∀ turn text, x.call? turn text s ≠ none →
      (∀ id c, s.object id = .command c → ∃ c',
        (x.execute turn text s).2.object id = .command c' ∧
          c'.followed = c.followed ++ noticesFor id (x.notice? text s).toList) ∧
      (s.Anchored → ∀ id c, s.objects.length ≤ id →
        (x.execute turn text s).2.object id = .command c → c.followed = [])) ∧
    ∀ lines results t, x.executeAll lines s = (.ok results, t) →
      (∀ id c, s.object id = .command c → ∃ c',
        t.object id = .command c' ∧ c'.followed = c.followed ++ noticesFor id (x.notices lines s)) ∧
      ((∀ first, first <+: lines → (x.after first s).Anchored) →
        ∀ id c, s.objects.length ≤ id → t.object id = .command c →
          c.followed = noticesFor id (x.notices lines s)) := by
  refine ⟨fun turn text hcall => ⟨fun id c hc => ?_, fun hs id c => untold_execute hcall hs⟩,
    fun lines results t h => ⟨fun id c hc => ?_, fun hs id c => untold_executeAll h hs⟩⟩
  · have htold := told_execute hcall (State.lt_of_object_command hc)
    exact TaskObject.told_command (hc ▸ htold)
  · have htold := told_executeAll h (State.lt_of_object_command hc)
    exact TaskObject.told_command (hc ▸ htold)

/-- A task that is told of the recommendation by the turn that fills its slot. -/
theorem notified_once_alarms :
    let s := State.new .empty
    let lines := [(0, "create_alarm()"), (1, "x0.time = \"8:30\" #y")]
    Conversation.alarms.notices lines s = [(0, "time")] ∧
      ∃ results t c, Conversation.alarms.executeAll lines s = (.ok results, t) ∧
        t.object 0 = .command c ∧ c.followed = ["time"] := by
  intro s lines
  have hnotices : Conversation.alarms.notices lines s = [(0, "time")] := by decide +kernel
  have hok : (Conversation.alarms.executeAll lines s).1.isOk = true := by decide +kernel
  have hcommand :
      ((Conversation.alarms.executeAll lines s).2.object 0).command?.isSome = true := by
    decide +kernel
  have hclosed : s.Closed := State.closed_new fun kind e he => by
    simp [AppContext.empty, AppContext.records, AppContext.recordsIn] at he
  refine ⟨hnotices, ?_⟩
  generalize hrun : Conversation.alarms.executeAll lines s = ended at hok hcommand ⊢
  obtain ⟨r, t⟩ := ended
  obtain ⟨results, rfl⟩ : ∃ results, r = .ok results := by
    cases r with
    | error e => simp [Except.isOk, Except.toBool] at hok
    | ok results => exact ⟨results, rfl⟩
  cases hobject : t.object 0 with
  | entity e => simp [hobject, TaskObject.command?] at hcommand
  | command c =>
    have hfollowed := ((notified_once Conversation.alarms s).2 lines results t hrun).2
      (fun first _ => anchored_after hclosed first) 0 c (Nat.le_refl 0) hobject
    rw [hnotices] at hfollowed
    exact ⟨results, t, c, rfl, hobject, hfollowed⟩

end Executor

end TaskDialogue
