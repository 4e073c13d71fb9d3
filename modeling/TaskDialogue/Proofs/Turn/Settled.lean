import TaskDialogue.Proofs.Turn.Outcome
import TaskDialogue.Proofs.Turn.Steps

/-!
# Tasks that ask for nothing more

A task that asks for nothing goes on asking for nothing until something that it needs is taken
back. Results are found only by queries that ask for nothing, and a write through a query goes to
one of its results; so queries never come to ask for anything again.
-/
namespace TaskDialogue

/-- Whether one of the writes leaves a task of the schema without something that it needs. -/
def CallKind.takesBack (schema : CommandSchema) : CallKind → Bool
  | .assignment updates => updates.any fun update => schema.takesBack update.attr update.value
  | .command _ _ | .perform _ | .append _ _ | .next _ | .value _ => false

theorem CallKind.takesBack_eq_false {schema : CommandSchema} {kind : CallKind} {attr : String}
    {v : Value} (hwrites : kind.Writes attr v) (hkeep : kind.takesBack schema = false) :
    schema.takesBack attr v = false := by
  cases kind with
  | assignment updates =>
    obtain ⟨update, hmem, rfl, rfl⟩ := hwrites
    simp only [takesBack, List.any_eq_false, Bool.not_eq_true] at hkeep
    exact hkeep update hmem
  | append name item =>
    obtain ⟨-, items, rfl⟩ := hwrites
    simp [CommandSchema.takesBack, Value.isNone]
  | command _ _ | perform _ | next _ | value _ => exact hwrites.elim

namespace TaskObject

variable {o changed : TaskObject} {position : Nat}

/-- A write to a result of a query changes its results alone. -/
theorem withPart_result (hlt : position < o.resultCount)
    (hw : (o.part (some position)).Written changed) :
    ∃ c e, o = .command c ∧
      o.withPart (some position) changed =
        .command { c with results := c.results.set position e } := by
  cases o with
  | entity e => simp [resultCount] at hlt
  | command c =>
    rw [resultCount] at hlt
    simp only [part, List.getElem?_eq_getElem hlt] at hw
    cases hw with
    | @entity _ e _ _ => exact ⟨c, e, rfl, by simp only [withPart, hlt, if_true]⟩

/-- To perform a result of a query changes nothing. -/
theorem perform_result {context : AppContext} {output : Option ActionOutput}
    (hlt : position < o.resultCount)
    (h : (o.part (some position)).perform context = .ok (output, changed)) :
    (o.part (some position)).Written changed := by
  obtain ⟨e, he⟩ := part_entity hlt
  rw [he] at h ⊢
  simp only [perform, Except.ok.injEq, Prod.mk.injEq] at h
  exact h.2 ▸ .entity rfl rfl

end TaskObject

namespace State

variable {s : State} {var : String} {index : Option Int64} {target : TaskRef}
  {changed : TaskObject}

/-- What has results is a query that asks for nothing. -/
def Found (s : State) : Prop :=
  ∀ id, (s.object id).resultCount ≠ 0 →
    ∃ c, s.object id = .command c ∧ c.isQuery = true ∧ c.recommend? = none

/-- A target that is a result of a query, and one that is not a query. -/
theorem resolve_part (h : s.resolve var index = .ok target) :
    (∃ position, target.entity = some position ∧
        position < (s.object target.id).resultCount) ∨
      (target.entity = none ∧ ∀ c, s.object target.id = .command c → c.isQuery = false) := by
  obtain ⟨-, ⟨_, position, -, -, -, hentity⟩ | ⟨-, hentity, hquery⟩⟩ := resolve_cases h
  · exact .inl ⟨position, hentity, (resolve_targets h).2 position hentity⟩
  · exact .inr ⟨hentity, hquery⟩

/-- A write to a result leaves everything that has results asking for nothing. -/
theorem Found.setTask_result (hs : s.Found) {id position : Nat}
    (hlt : position < (s.object id).resultCount)
    (hw : (s.task ⟨id, some position⟩).Written changed) :
    (s.setTask ⟨id, some position⟩ changed).Found := by
  intro other
  rw [object_setTask]
  split
  · next hid =>
    obtain ⟨rfl, -⟩ := hid
    intro _
    obtain ⟨c, e, hc, hresult⟩ := TaskObject.withPart_result hlt hw
    obtain ⟨d, hd, hquery, hasks⟩ := hs id (Nat.ne_of_gt (Nat.zero_lt_of_lt hlt))
    obtain rfl : d = c := TaskObject.command.inj (hd.symm.trans hc)
    exact ⟨_, hresult, hquery, hasks⟩
  · exact hs other

theorem Found.setTask_whole (hs : s.Found) (id : Nat)
    (h : changed.resultCount ≠ 0 →
      ∃ c, changed = .command c ∧ c.isQuery = true ∧ c.recommend? = none) :
    (s.setTask ⟨id, none⟩ changed).Found := by
  intro other
  rw [object_setTask, TaskObject.withPart_none]
  split
  · exact h
  · exact hs other

/-- A write through a variable gives no results to what has none. -/
theorem Found.write (hs : s.Found) (hresolve : s.resolve var index = .ok target)
    (hw : (s.task target).Written changed) : (s.setTask target changed).Found := by
  obtain ⟨id, entity⟩ := target
  obtain ⟨position, rfl, hlt⟩ | ⟨rfl, hquery⟩ := resolve_part hresolve
  · exact hs.setTask_result hlt hw
  · refine hs.setTask_whole id fun hresults => ?_
    rw [hw.resultCount, task, TaskObject.part_none] at hresults
    obtain ⟨c, hc, hisQuery, -⟩ := hs id hresults
    simp [hquery c hc] at hisQuery

/-- Results are found by a query that asks for nothing. -/
theorem Found.perform {context : AppContext} {output : Option ActionOutput} (hs : s.Found)
    (htargets : s.Targets var target) (hasks : (s.task target).recommend? = none)
    (h : (s.task target).perform context = .ok (output, changed)) :
    (s.setTask target changed).Found := by
  obtain ⟨id, entity⟩ := target
  cases entity with
  | some position =>
    have hlt := htargets.2 position rfl
    exact hs.setTask_result hlt (TaskObject.perform_result hlt h)
  | none =>
    simp only [State.task, TaskObject.part_none] at h hasks
    refine hs.setTask_whole id fun hresults => ?_
    obtain rfl | ⟨c, entity, hc, hkind, -, rfl⟩ := TaskObject.perform_cases h
    · exact hs id hresults
    · rw [hc] at hasks
      exact ⟨_, rfl, by rw [Command.isQuery, hkind]; rfl, hasks⟩

/-- What asks for nothing asks for nothing after a write that takes nothing back. -/
theorem recommend?_write {attr : String} {v : Value} {id : Nat}
    (hresolve : s.resolve var index = .ok target)
    (hset : (s.task target).set attr v = .ok changed) (hasks : (s.object id).recommend? = none)
    (hkeep : target.id = id → ∀ c, s.object id = .command c → c.isQuery = false →
      c.schema.takesBack attr v = false) :
    ((s.setTask target changed).object id).recommend? = none := by
  rw [object_setTask]
  split
  · next hid =>
    obtain ⟨rfl, -⟩ := hid
    obtain ⟨id, entity⟩ := target
    obtain ⟨position, rfl, hlt⟩ | ⟨rfl, hquery⟩ := resolve_part hresolve
    · obtain ⟨c, e, hc, hresult⟩ :=
        TaskObject.withPart_result hlt (TaskObject.set_written hset)
      rw [hc] at hasks
      rw [hresult]
      exact hasks
    · rw [TaskObject.withPart_none]
      simp only [task, TaskObject.part_none] at hset
      cases hobject : s.object id with
      | entity e =>
        rw [hobject] at hset
        cases TaskObject.set_written hset with
        | entity _ _ => rfl
      | command c =>
        rw [hobject] at hset hasks
        obtain ⟨c', hc', rfl⟩ := map_eq_ok.mp hset
        exact Command.recommend?_set hc' (hkeep rfl c hobject (hquery c hobject)) hasks
  · exact hasks

end State

namespace Exec

variable {var : String} {kind : CallKind} {target : TaskRef} {s t u : State} {r : ActionResult}
  {output : Option ActionOutput}

theorem found_protocolTask (h : protocolTask? var kind s = some (target, u)) (hs : s.Found) :
    u.Found :=
  protocolTask?_preserves h (fun _ _ hs => hs)
    (fun _ _ _ _ _ _ hresolve hset _ hs => hs.write hresolve (TaskObject.set_written hset)) hs

/-- What asks for nothing asks for nothing after the writes of a call, if none of them takes
something back from it. -/
theorem recommend?_protocolTask {id : Nat} (h : protocolTask? var kind s = some (target, u))
    (hasks : (s.object id).recommend? = none)
    (hkeep : s.find? var = some (.object id) → ∀ c, s.object id = .command c →
      c.isQuery = false → kind.takesBack c.schema = false) :
    (u.object id).recommend? = none := by
  refine (protocolTask?_preserves (P := fun s => (s.object id).recommend? = none ∧
    (s.find? var = some (.object id) → ∀ c, s.object id = .command c → c.isQuery = false →
      kind.takesBack c.schema = false)) h ?_ ?_ ⟨hasks, hkeep⟩).1
  · rintro place rfl ⟨hasks, -⟩
    exact ⟨hasks, fun _ _ _ _ => rfl⟩
  · rintro s place changed index attr v hresolve hset hwrites ⟨hasks, hkeep⟩
    refine ⟨State.recommend?_write hresolve hset hasks fun hid c hc hquery => ?_, ?_⟩
    · have hfind := (State.resolve_targets hresolve).1
      exact CallKind.takesBack_eq_false hwrites (hkeep (hid ▸ hfind) c hc hquery)
    · intro hfind c' hc' hquery
      have halike := State.alike_setTask (TaskObject.set_written hset) id
      rw [hc'] at halike
      cases hobject : s.object id with
      | entity e =>
        rw [hobject] at halike
        cases halike
      | command c =>
        rw [hobject] at halike
        cases halike with
        | command schema _ =>
          rw [Command.isQuery, schema] at hquery
          rw [schema]
          exact hkeep hfind c hobject hquery

theorem Performs.object (h : Performs var target u output r t) :
    ∃ changed, (u.task target).perform u.context = .ok (output, changed) ∧
      ∀ id, t.object id = (u.setTask target changed).object id := by
  obtain ⟨changed, hperform, rfl⟩ := h.state
  exact ⟨changed, hperform, fun _ => rfl⟩

/-- To perform a task leaves everything asking for what it asks for. -/
theorem Performs.recommend? (h : Performs var target u output r t)
    (htargets : u.Targets var target) (id : Nat) :
    (t.object id).recommend? = (u.object id).recommend? := by
  obtain ⟨changed, hperform, hobject⟩ := h.object
  rw [hobject, State.object_setTask]
  split
  · next hid =>
    obtain ⟨rfl, -⟩ := hid
    obtain ⟨id, entity⟩ := target
    cases entity with
    | none =>
      simp only [State.task, TaskObject.part_none] at hperform
      rw [TaskObject.withPart_none, TaskObject.recommend?_perform hperform]
    | some position =>
      have hlt := htargets.2 position rfl
      obtain ⟨c, e, hc, hresult⟩ :=
        TaskObject.withPart_result hlt (TaskObject.perform_result hlt hperform)
      rw [hresult, hc]
      rfl
  · rfl

end Exec

/-! ### Turns -/

namespace State

/-- The task of a variable is done: it was completed and asks for nothing. -/
structure Settled (s : State) (v : String) : Prop where
  completed : v ∈ s.completed
  asks : ∃ id, s.find? v = some (.object id) ∧ id < s.objects.length ∧
    (s.object id).recommend? = none

/-- Objects that are told of a recommendation at most leave the results where they are. -/
theorem Found.of_notified {s t : State} (hs : s.Found)
    (hcount : ∀ id, (t.object id).resultCount = (s.object id).resultCount)
    (hobjects : ∀ id, id < s.objects.length →
      t.object id = s.object id ∨ ∃ action, t.object id = (s.object id).notify action) :
    t.Found := by
  intro id hresults
  rw [hcount] at hresults
  obtain ⟨c, hc, hquery, hasks⟩ := hs id hresults
  obtain hsame | ⟨action, hnotified⟩ := hobjects id (lt_of_object_command hc)
  · exact ⟨c, hsame.trans hc, hquery, hasks⟩
  · rw [hc] at hnotified
    exact ⟨c.notify action, hnotified, hquery, hasks⟩

/-- No step of a turn gives results to what asks for something. -/
theorem found_steps : StepInvariant Found where
  congr {s t} hs hobjects id := by
    have hobject : t.object id = s.object id := by rw [object, object, hobjects]
    rw [hobject]
    exact hs id
  makes hmakes hs := hs.of_notified hmakes.resultCount fun _ hid => .inl (hmakes.object_of_lt hid)
  copy {s} e hs id := by
    rw [object_alloc]
    split
    · exact fun hresults => absurd rfl hresults
    · exact hs id
  follow {s} hs := by
    refine hs.of_notified (fun id => ?_) fun id _ => ?_
    · obtain hsame | ⟨_, _, -, -, hnotified⟩ := s.object_followRecommendation id
      · rw [hsame]
      · rw [hnotified, TaskObject.resultCount_notify]
    · obtain hsame | ⟨_, action, -, -, hnotified⟩ := s.object_followRecommendation id
      · exact .inl hsame
      · exact .inr ⟨action.name, hnotified⟩
  write hresolve hw hs := hs.write hresolve hw
  perform ht hasks hperform hs := hs.perform ht hasks hperform

theorem found_new (context : AppContext) : (new context).Found := by
  simp [Found, new, object, TaskObject.resultCount]

end State

/-- Whether a call takes something back that the command of a variable needs. This may go through
another variable that is bound to the same command. -/
def Exec.withdraws (v : String) (call : Call) (s : State) : Bool :=
  decide (s.find? call.var = s.find? v) &&
    (s.command? v).any fun c => !c.isQuery && call.kind.takesBack c.schema

namespace Executor

/-- Whether a turn takes something back that the command of a variable needs. -/
def withdraws (x : Executor) (v : String) (turn : Nat) (text : String) (s : State) : Bool :=
  (x.call? turn text s).any fun c => Exec.withdraws v c.1 c.2

variable {x : Executor} {turn : Nat} {text : String} {s u w : State} {v : String}
  {r : ActionResult} {call : Call} {target : TaskRef}

theorem Advances.found (h : x.Advances turn text s call u target w) (hs : s.Found) : w.Found := by
  obtain ⟨-, -, -, hresults⟩ := call?_cases h.called
  exact Exec.found_protocolTask h.task (hs.of_notified hresults (call?_objects h.called).2.2)

theorem found_execute (x : Executor) (turn : Nat) (text : String) (hs : s.Found) :
    (x.execute turn text s).2.Found :=
  State.found_steps.execute x turn text hs

/-- What a turn completes asks for nothing. -/
theorem settled_of_completed (hok : (x.execute turn text s).1 = .ok r) (hs : s.Found)
    (hbefore : v ∉ s.completed) (hv : v ∈ (x.execute turn text s).2.completed) :
    (x.execute turn text s).2.Settled v := by
  obtain hidles | ⟨call, u, target, w, hadvances, ⟨a, hrecommends⟩ | ⟨output, hperforms⟩⟩ :=
    execute_cases hok
  · exact absurd (hidles.completed ▸ hv) hbefore
  · rw [hrecommends.state] at hv
    exact absurd (hadvances.completed ▸ hv) hbefore
  · refine ⟨hv, target.id, ?_, ?_, ?_⟩
    · obtain ⟨changed, -, hstate⟩ := hperforms.state
      rw [hstate] at hv ⊢
      obtain hw | rfl := State.mem_complete.mp hv
      · exact absurd (hadvances.completed ▸ hw) hbefore
      · exact hadvances.targets.1
    · obtain ⟨changed, -, hstate⟩ := hperforms.state
      have hlength : (x.execute turn text s).2.objects.length = w.objects.length := by
        rw [hstate]
        exact State.length_setTask { w with recommendation := none } target changed
      exact hlength ▸ hadvances.lt
    · rw [hperforms.recommend? hadvances.targets]
      obtain ⟨id, entity⟩ := target
      cases entity with
      | none => simpa only [State.task, TaskObject.part_none] using hperforms.asks
      | some position =>
        have hlt := hadvances.targets.2 position rfl
        obtain ⟨c, hc, -, hasks⟩ :=
          hadvances.found hs id (Nat.ne_of_gt (Nat.zero_lt_of_lt hlt))
        rw [hc]
        exact hasks

/-- A task that is done stays so, unless the turn takes something back from it. -/
theorem settled_execute (hfresh : s.find? (varName turn) = none)
    (hok : (x.execute turn text s).1 = .ok r) (hkeep : x.withdraws v turn text s = false)
    (hs : s.Settled v) : (x.execute turn text s).2.Settled v := by
  obtain ⟨id, hfind, hid, hasks⟩ := hs.asks
  refine ⟨completed_execute_mono hs.completed, id, ?_, ?_, ?_⟩
  · rw [find?_execute_of_bound hfresh (by simp [hfind]), hfind]
  · exact Nat.lt_of_lt_of_le hid (length_execute x turn text s)
  · obtain hidles | ⟨call, u, target, w, hadvances, houtcome⟩ := execute_cases hok
    · rw [hidles.recommend? hid, hasks]
    · have hw : (w.object id).recommend? = none := by
        refine Exec.recommend?_protocolTask hadvances.task ?_ fun hvar c hc hquery => ?_
        · rw [recommend?_call? hadvances.called hid, hasks]
        · have hbindings := (call?_cases hadvances.called).2.1
          have hfind' : u.find? v = some (.object id) := by rw [← hfind, State.find?, hbindings]; rfl
          have hcommand := State.command?_eq_some.mpr ⟨id, hfind', hc⟩
          simpa [withdraws, Exec.withdraws, hadvances.called, hvar, hfind', hcommand, hquery]
            using hkeep
      obtain ⟨a, hrecommends⟩ | ⟨output, hperforms⟩ := houtcome
      · rw [hrecommends.state]
        exact hw
      · rw [hperforms.recommend? hadvances.targets, hw]

end Executor

end TaskDialogue
