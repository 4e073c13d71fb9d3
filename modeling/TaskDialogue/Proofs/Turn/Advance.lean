import TaskDialogue.Proofs.Conversation.Inputs
import TaskDialogue.Proofs.Store.Resolution
import TaskDialogue.Proofs.Task.Asks
import TaskDialogue.Proofs.Turn.Protocol

/-!
# Recommend or perform

A call that advances a task writes to it first, and then the task either recommends or is
performed. Which of the two happens is decided by what the task asks for after the writes, and
result, recommendation and completed variables all follow from it. A call that advances no task
leaves the recommendation and the completed variables as they are.
-/
namespace TaskDialogue

/-- Whether a call advances a task. -/
def CallKind.advances : CallKind → Bool
  | command _ _ | append _ _ => true
  | assignment updates => !updates.isEmpty
  | perform _ | next _ | value _ => false

/-- The writes that a call makes: those of an assignment, or a list with one more item. -/
def CallKind.Writes (attr : String) (v : Value) : CallKind → Prop
  | .assignment updates => ∃ update ∈ updates, update.attr = attr ∧ update.value = v
  | .append name item => name = attr ∧ ∃ items, v = .list (items ++ [item])
  | .command _ _ | .perform _ | .next _ | .value _ => False

namespace Exec

/-- The task that a call addresses: the command itself, or what its variable means; of several
writes the last one counts. -/
def addressed? (var : String) (kind : CallKind) (s : State) : Option TaskRef :=
  match kind with
  | .command id _ => some ⟨id, none⟩
  | .assignment updates =>
    updates.getLast?.bind fun update => (s.resolve var update.index).toOption
  | .append _ _ => (s.resolve var none).toOption
  | .perform _ | .next _ | .value _ => none

/-- The task of a variable, written to in the state `u`, asks for something: this is recommended,
and nothing else happens. -/
structure Recommends (var : String) (target : TaskRef) (u : State) (a : RecommendedAction)
    (r : ActionResult) (t : State) : Prop where
  asks : (u.task target).recommend? = some a
  action : r.recommendedAction = some a
  result : r.result = none
  state : t = { u with recommendation := some (var, a) }

/-- The task of a variable, written to in the state `u`, asks for nothing: it is performed, and
the variable is completed. -/
structure Performs (var : String) (target : TaskRef) (u : State) (output : Option ActionOutput)
    (r : ActionResult) (t : State) : Prop where
  asks : (u.task target).recommend? = none
  action : r.recommendedAction = none
  result : r.result = output
  state : ∃ changed, (u.task target).perform u.context = .ok (output, changed) ∧
    t = ({ u with recommendation := none }.setTask target changed).complete var

variable {var : String} {kind : CallKind} {target : TaskRef} {index : Nat} {s t u : State}
  {r : ActionResult}

/-- The writes of an assignment end at what its variable means with the last index. -/
theorem applyUpdates_target {updates : List AttributeUpdate} {first : Option TaskRef}
    (h : applyUpdates var updates first s = (.ok (some target), t)) :
    (updates = [] ∧ first = some target) ∨
      ∃ update, updates.getLast? = some update ∧ s.resolve var update.index = .ok target := by
  induction updates generalizing first s with
  | nil =>
    simp only [applyUpdates, Prod.mk.injEq, Except.ok.injEq] at h
    exact .inl ⟨rfl, h.1⟩
  | cons update updates ih =>
    refine .inr ?_
    simp only [applyUpdates] at h
    split at h
    · simp at h
    · next place hplace =>
      split at h
      · simp at h
      · next changed hset =>
        obtain ⟨rfl, hlast⟩ | ⟨last, hlast, htarget⟩ := ih h
        · rw [Option.some.injEq] at hlast
          exact ⟨update, rfl, hlast ▸ hplace⟩
        · rw [State.resolve_setTask (TaskObject.set_written hset)] at htarget
          exact ⟨last, by simp [List.getLast?_cons, hlast], htarget⟩

/-- Only an assignment without writes has no target. -/
theorem applyUpdates_none {updates : List AttributeUpdate} {first : Option TaskRef}
    (h : applyUpdates var updates first s = (.ok none, t)) : updates = [] ∧ first = none := by
  induction updates generalizing first s with
  | nil =>
    simp only [applyUpdates, Prod.mk.injEq, Except.ok.injEq] at h
    exact ⟨rfl, h.1⟩
  | cons update updates ih =>
    simp only [applyUpdates] at h
    split at h
    · simp at h
    · split at h
      · simp at h
      · exact absurd (ih h).2 (by simp)

/-- The task that a call advances is the one that it addresses. -/
theorem addressed?_eq (h : protocolTask? var kind s = some (target, u)) :
    addressed? var kind s = some target := by
  obtain ⟨id, assigned, rfl, rfl, rfl⟩ | ⟨updates, rfl, heq⟩ |
    ⟨attr, value, changed, rfl, hplace, happend, rfl⟩ := protocolTask?_eq_some h
  · rfl
  · obtain ⟨-, hfirst⟩ | ⟨update, hlast, htarget⟩ := applyUpdates_target heq
    · simp at hfirst
    · simp [addressed?, hlast, htarget, Except.toOption]
  · simp [addressed?, hplace, Except.toOption]

section

variable {P : State → Prop}

/-- What each write of an assignment keeps is kept by all of them. -/
theorem applyUpdates_preserves {updates : List AttributeUpdate} {first : Option TaskRef}
    (write : ∀ s target changed, ∀ update ∈ updates, s.resolve var update.index = .ok target →
      (s.task target).set update.attr update.value = .ok changed → P s →
        P (s.setTask target changed)) (hs : P s) : P (applyUpdates var updates first s).2 := by
  induction updates generalizing first s with
  | nil => exact hs
  | cons update updates ih =>
    simp only [applyUpdates]
    split
    · exact hs
    · next place hplace =>
      split
      · exact hs
      · next changed hset =>
        refine ih (fun s target changed update hmem => ?_) ?_
        · exact write s target changed update (List.mem_cons_of_mem _ hmem)
        · exact write s place changed update List.mem_cons_self hplace hset hs

/-- Before the protocol is run a call binds its variable, or writes to what this means. -/
theorem protocolTask?_preserves (h : protocolTask? var kind s = some (target, u))
    (bind : ∀ id, kind = .command id false → P s → P (s.bind var (.object id)))
    (write : ∀ s target changed index attr v, s.resolve var index = .ok target →
      (s.task target).set attr v = .ok changed → kind.Writes attr v → P s →
        P (s.setTask target changed)) (hs : P s) : P u := by
  obtain ⟨id, assigned, rfl, rfl, rfl⟩ | ⟨updates, rfl, heq⟩ |
    ⟨attr, value, changed, rfl, hplace, happend, rfl⟩ := protocolTask?_eq_some h
  · cases assigned with
    | true => exact hs
    | false => exact bind id rfl hs
  · have hupdated : P (applyUpdates var updates none s).2 :=
      applyUpdates_preserves (fun s target changed update hmem hresolve hset =>
        write s target changed update.index _ _ hresolve hset ⟨update, hmem, rfl, rfl⟩) hs
    rwa [heq] at hupdated
  · obtain ⟨items, -, hset⟩ := TaskObject.append_cases happend
    exact write s target changed none attr _ hplace hset ⟨rfl, items, rfl⟩ hs

end

/-- A call touches objects and bindings only, before the protocol is run. -/
theorem protocolTask?_rest (h : protocolTask? var kind s = some (target, u)) :
    u = { s with objects := u.objects, bindings := u.bindings } := by
  refine protocolTask?_preserves (P := fun w =>
    w = { s with objects := w.objects, bindings := w.bindings }) h ?_ ?_ rfl
  · intro id _ _
    rfl
  · intro w place changed index attr v _ _ _ hw
    rw [hw]
    rfl

/-- A call that ends well and is to advance a task does so. -/
theorem protocolTask?_of_advances (hkind : kind.advances = true)
    (h : runKind var index kind s = (.ok r, t)) :
    ∃ target u, protocolTask? var kind s = some (target, u) := by
  cases kind with
  | command id assigned => exact ⟨_, _, rfl⟩
  | assignment updates =>
    simp only [runKind] at h
    split at h
    · simp at h
    · next heq =>
      obtain ⟨rfl, -⟩ := applyUpdates_none heq
      simp [CallKind.advances] at hkind
    · next target u heq => exact ⟨target, u, by simp only [protocolTask?, heq]⟩
  | append attr value =>
    simp only [runKind] at h
    split at h
    · simp at h
    · next place hplace =>
      split at h
      · simp at h
      · next changed happend => exact ⟨_, _, by simp only [protocolTask?, hplace, happend]; rfl⟩
  | perform _ | next _ | value _ => simp [CallKind.advances] at hkind

/-- A call that advances no task binds its variable and copies an entity at most. -/
theorem runKind_idle (var : String) (index : Nat) (s : State) (hkind : kind.advances = false) :
    (runKind var index kind s).2.completed = s.completed ∧
      (runKind var index kind s).2.recommendation = s.recommendation ∧
      ∀ id, id < s.objects.length →
        (runKind var index kind s).2.object id = s.object id := by
  have hcopy : ∀ entity, (bindCopy var entity s).2.completed = s.completed ∧
      (bindCopy var entity s).2.recommendation = s.recommendation ∧
      ∀ id, id < s.objects.length → (bindCopy var entity s).2.object id = s.object id := by
    intro entity
    cases entity with
    | none => exact ⟨rfl, rfl, fun _ _ => rfl⟩
    | some e => exact ⟨rfl, rfl, fun _ hid => State.object_append hid⟩
  cases kind with
  | command _ _ | append _ _ => simp [CallKind.advances] at hkind
  | assignment updates =>
    simp only [CallKind.advances, Bool.not_eq_false', List.isEmpty_iff] at hkind
    subst hkind
    exact ⟨rfl, rfl, fun _ _ => rfl⟩
  | perform binding =>
    obtain _ | ⟨id | e⟩ := binding
    · exact ⟨rfl, rfl, fun _ _ => rfl⟩
    · exact ⟨rfl, rfl, fun _ _ => rfl⟩
    · exact hcopy (some e)
  | next entity => exact hcopy entity
  | value value => exact ⟨rfl, rfl, fun _ _ => rfl⟩

/-- A call that ends well and advances a task recommends or performs it. -/
theorem runKind_advances (hkind : kind.advances = true)
    (h : runKind var index kind s = (.ok r, t)) :
    ∃ target u, protocolTask? var kind s = some (target, u) ∧
      ((∃ a, Recommends var target u a r t) ∨ ∃ output, Performs var target u output r t) := by
  obtain ⟨target, u, hprotocol⟩ := protocolTask?_of_advances hkind h
  refine ⟨target, u, hprotocol, ?_⟩
  rw [runKind_of_protocolTask index hprotocol] at h
  obtain ⟨a, hasks, hr⟩ | ⟨hasks, ⟨cause, -, hr⟩ | ⟨output, changed, hperform, hr⟩⟩ :=
    performOrRecommend_cases var index target u
  · simp only [hr, Prod.mk.injEq, Except.ok.injEq] at h
    obtain ⟨rfl, rfl⟩ := h
    exact .inl ⟨a, hasks, rfl, rfl, rfl⟩
  · simp [hr] at h
  · simp only [hr, Prod.mk.injEq, Except.ok.injEq] at h
    obtain ⟨rfl, rfl⟩ := h
    exact .inr ⟨output, hasks, rfl, rfl, changed, hperform, rfl⟩

/-- A call that ends well and advances a task does what the task asks for after the writes. If
it asks for something, this is recommended for the variable of the call, and the task is not
performed. If it asks for nothing, it is performed, the variable is completed and nothing is
recommended; a command then has all that it requires. Any other call leaves the recommendation
and the completed variables alone. -/
theorem run_recommends_or_performs {call : Call} {followed : Bool}
    (h : run call followed s = (.ok r, t)) :
    let first := if followed then s.followRecommendation else s
    (call.kind.advances = true → ∃ target u,
      protocolTask? call.var call.kind first = some (target, u) ∧
        addressed? call.var call.kind first = some target ∧
        ((∃ a, Recommends call.var target u a r t ∧
            t.recommendation = some (call.var, a) ∧ t.completed = s.completed) ∨
          ∃ output, Performs call.var target u output r t ∧
            t.recommendation = none ∧ (∀ v, v ∈ t.completed ↔ v ∈ s.completed ∨ v = call.var) ∧
            ∀ c, u.task target = .command c →
              (∀ slot ∈ c.schema.slots.zip c.values,
                slot.1.required = true → slot.2.isNone = false) ∧
              (c.schema.confirmationRequired = true → c.confirmed = true))) ∧
      (call.kind.advances = false →
        t.completed = s.completed ∧ t.recommendation = s.recommendation) := by
  intro first
  have hfirst : first.completed = s.completed ∧ first.recommendation = s.recommendation := by
    cases followed <;> simp [first]
  have hrun : runKind call.var call.index call.kind first = (.ok r, t) := h
  constructor
  · intro hkind
    obtain ⟨target, u, hprotocol, houtcome⟩ := runKind_advances hkind hrun
    have hcompleted : u.completed = s.completed := by
      rw [protocolTask?_rest hprotocol]
      exact hfirst.1
    refine ⟨target, u, hprotocol, addressed?_eq hprotocol, ?_⟩
    obtain ⟨a, hrecommends⟩ | ⟨output, hperforms⟩ := houtcome
    · refine .inl ⟨a, hrecommends, ?_⟩
      rw [hrecommends.state]
      exact ⟨rfl, hcompleted⟩
    · refine .inr ⟨output, hperforms, ?_⟩
      obtain ⟨changed, -, rfl⟩ := hperforms.state
      refine ⟨rfl, fun v => ?_, fun c hc => ?_⟩
      · rw [State.mem_complete, ← hcompleted]
        rfl
      · have hasks := hperforms.asks
        rw [hc] at hasks
        exact Command.recommend?_eq_none_iff.mp hasks
  · intro hkind
    obtain ⟨hcompleted, hrecommendation, -⟩ := runKind_idle call.var call.index first hkind
    rw [hrun] at hcompleted hrecommendation
    exact ⟨hcompleted.trans hfirst.1, hrecommendation.trans hfirst.2⟩

/-- The time of an alarm is all that it needs. -/
theorem run_recommends_or_performs_alarm :
    let s := (Conversation.alarms.execute 0 "create_alarm()" (.new .empty)).2
    let call : Call := ⟨"x0", 0, .assignment [⟨"time", none, .str "8:30"⟩]⟩
    ∃ r t, run call true s = (.ok r, t) ∧ r.result = some (.inform "Success") ∧ ∃ target u,
      addressed? "x0" call.kind s.followRecommendation = some target ∧
        Performs "x0" target u r.result r t ∧ t.recommendation = none ∧
        ∀ v, v ∈ t.completed ↔ v ∈ s.completed ∨ v = "x0" := by
  intro s call
  have hok : (run call true s).1.toOption =
      some (.performed 0 (some (.inform "Success"))) := by
    decide +kernel
  generalize s = s at hok ⊢
  cases hrun : run call true s with
  | mk result t =>
    cases result with
    | error e => simp [hrun, Except.toOption] at hok
    | ok r =>
      simp only [hrun, Except.toOption, Option.some.injEq] at hok
      obtain ⟨target, u, -, haddressed, ⟨a, hrecommends, -⟩ | ⟨output, hperforms, hnone, hall, -⟩⟩ :=
        (run_recommends_or_performs hrun).1 rfl
      · exact absurd hrecommends.action (by simp [hok, ActionResult.performed])
      · refine ⟨r, t, rfl, by rw [hok]; rfl, target, u, haddressed, ?_, hnone, hall⟩
        rwa [hperforms.result]

end Exec

end TaskDialogue
