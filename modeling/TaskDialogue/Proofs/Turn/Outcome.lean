import TaskDialogue.Proofs.Turn.Advance
import TaskDialogue.Proofs.Turn.Effects
import TaskDialogue.Proofs.Turn.Invariants

/-!
# How a turn ends

A turn that succeeds has a call. If the call advances a task, then this is an object of the
store, written to and recommended or performed. If not, the turn leaves the objects and what is
recommended and completed as they were.
-/
namespace TaskDialogue

namespace Exec

variable {var : String} {kind : CallKind} {target : TaskRef} {s t u : State}

/-- The store never shrinks. -/
theorem length_turn (registry : Registry) (n : Nat) :
    TurnInvariant registry (fun s => n ≤ s.objects.length) (fun _ _ => True) (fun _ _ => True)
      (fun _ _ => True) := by
  refine .of_state (fun o hs => ?_) (fun _ _ hs => hs) (fun target changed hs => ?_) (fun hs => ?_)
    (fun hs hobjects _ _ => ?_)
  · simpa [State.alloc] using Nat.le_succ_of_le hs
  · rwa [State.length_setTask]
  · rwa [State.length_followRecommendation]
  · rwa [hobjects]

theorem protocolTask?_of_idle (hkind : kind.advances = false) :
    protocolTask? var kind s = none := by
  cases kind with
  | assignment updates =>
    simp only [CallKind.advances, Bool.not_eq_false', List.isEmpty_iff] at hkind
    subst hkind
    rfl
  | command _ _ | append _ _ => simp [CallKind.advances] at hkind
  | perform _ | next _ | value _ => rfl

theorem lt_of_set {attr : String} {v : Value} {changed : TaskObject}
    (h : (s.task target).set attr v = .ok changed) : target.id < s.objects.length := by
  rw [← Nat.not_le]
  intro hle
  have hnothing : s.task target = .entity ⟨"", []⟩ := by
    rw [State.task, State.object_of_le hle]
    cases target.entity <;> rfl
  rw [hnothing] at h
  cases h

theorem applyUpdates_lt {updates : List AttributeUpdate} {first : Option TaskRef}
    (hfirst : ∀ place, first = some place → place.id < s.objects.length)
    (h : applyUpdates var updates first s = (.ok (some target), t)) :
    target.id < t.objects.length := by
  induction updates generalizing first s with
  | nil =>
    simp only [applyUpdates, Prod.mk.injEq, Except.ok.injEq] at h
    obtain ⟨rfl, rfl⟩ := h
    exact hfirst target rfl
  | cons update updates ih =>
    simp only [applyUpdates] at h
    split at h
    · simp at h
    · next place _ =>
      split at h
      · simp at h
      · next changed hset =>
        refine ih ?_ h
        rintro _ ⟨rfl⟩
        rw [State.length_setTask]
        exact lt_of_set hset

/-- What is advanced is in the store. -/
theorem protocolTask?_lt
    (hcommand : ∀ id assigned, kind = .command id assigned → id < s.objects.length)
    (h : protocolTask? var kind s = some (target, u)) : target.id < u.objects.length := by
  obtain ⟨id, assigned, rfl, rfl, rfl⟩ | ⟨updates, rfl, heq⟩ |
    ⟨attr, value, changed, rfl, hplace, happend, rfl⟩ := protocolTask?_eq_some h
  · cases assigned <;> exact hcommand id _ rfl
  · exact applyUpdates_lt (by simp) heq
  · obtain ⟨_, -, hset⟩ := TaskObject.append_cases happend
    rw [State.length_setTask]
    exact lt_of_set hset

end Exec

namespace Executor

/-- A turn has a call that advances no task. -/
structure Idles (x : Executor) (turn : Nat) (text : String) (s : State) : Prop where
  completed : (x.execute turn text s).2.completed = s.completed
  recommendation : (x.execute turn text s).2.recommendation = s.recommendation
  objects : ∀ id, id < s.objects.length →
    (x.execute turn text s).2.object id = s.object id ∨
      ∃ action, (x.execute turn text s).2.object id = (s.object id).notify action
  resultCount : ∀ id,
    ((x.execute turn text s).2.object id).resultCount = (s.object id).resultCount

/-- The call of a turn, applied to the state `u`, advances a task. It does so in the state `w`. -/
structure Advances (x : Executor) (turn : Nat) (text : String) (s : State) (call : Call)
    (u : State) (target : TaskRef) (w : State) : Prop where
  called : x.call? turn text s = some (call, u)
  task : Exec.protocolTask? call.var call.kind u = some (target, w)
  targets : w.Targets call.var target
  lt : target.id < w.objects.length
  completed : w.completed = s.completed

variable {x : Executor} {turn : Nat} {text : String} {s u : State} {call : Call} {v : String}
  {r : ActionResult}

/-- A turn that succeeds advances a task, and recommends or performs it, or advances none. -/
theorem execute_cases (hok : (x.execute turn text s).1 = .ok r) :
    x.Idles turn text s ∨
      ∃ call u target w, x.Advances turn text s call u target w ∧
        ((∃ a, Exec.Recommends call.var target w a r (x.execute turn text s).2) ∨
          ∃ output, Exec.Performs call.var target w output r (x.execute turn text s).2) := by
  cases hcall : x.call? turn text s with
  | none =>
    obtain ⟨⟨e, he⟩, -⟩ := execute_of_no_call hcall
    simp [he] at hok
  | some c =>
    obtain ⟨call, u⟩ := c
    obtain ⟨hclassified, -, hcompleted, hresults⟩ := call?_cases hcall
    obtain ⟨hrecommendation, hlength, hobjects⟩ := call?_objects hcall
    have hexecute := execute_of_call hcall
    cases hadvances : call.kind.advances with
    | false =>
      obtain ⟨hdone, hsame, hkept⟩ := Exec.runKind_idle call.var call.index u hadvances
      have hnone : Exec.protocolTask? call.var call.kind u = none :=
        Exec.protocolTask?_of_idle hadvances
      refine .inl ⟨?_, ?_, fun id hid => ?_, fun id => ?_⟩
      · rw [hexecute, hdone, hcompleted]
      · rw [hexecute, hsame, hrecommendation]
      · rw [hexecute, hkept id (Nat.lt_of_lt_of_le hid hlength)]
        exact hobjects id hid
      · rw [hexecute, (Exec.runKind_of_none call.index hnone).2.2, hresults]
    | true =>
      rw [hexecute] at hok ⊢
      generalize hrun : Exec.runKind call.var call.index call.kind u = ended at hok ⊢
      obtain ⟨result, t⟩ := ended
      dsimp only at hok
      subst hok
      obtain ⟨target, w, hprotocol, houtcome⟩ := Exec.runKind_advances hadvances hrun
      refine .inr ⟨call, u, target, w, ⟨hcall, hprotocol, ?_, ?_, ?_⟩, houtcome⟩
      · exact (Exec.protocolTask?_cases hclassified.assigned hprotocol).1
      · exact Exec.protocolTask?_lt hclassified.command hprotocol
      · exact (Exec.completed_protocolTask hclassified.assigned hprotocol).trans hcompleted

/-- Up to the application of its call a turn leaves all objects asking for what they ask for. -/
theorem recommend?_call? (hcall : x.call? turn text s = some (call, u)) {id : Nat}
    (hid : id < s.objects.length) : (u.object id).recommend? = (s.object id).recommend? := by
  obtain hsame | ⟨action, hnotified⟩ := (call?_objects hcall).2.2 id hid
  · rw [hsame]
  · rw [hnotified, TaskObject.recommend?_notify]

theorem Idles.recommend? (h : x.Idles turn text s) {id : Nat} (hid : id < s.objects.length) :
    ((x.execute turn text s).2.object id).recommend? = (s.object id).recommend? := by
  obtain hsame | ⟨action, hnotified⟩ := h.objects id hid
  · rw [hsame]
  · rw [hnotified, TaskObject.recommend?_notify]

theorem length_execute (x : Executor) (turn : Nat) (text : String) (s : State) :
    s.objects.length ≤ (x.execute turn text s).2.objects.length :=
  (Exec.length_turn x.registry s.objects.length).execute turn text (Nat.le_refl _)

/-- A variable that was bound before a turn is bound to the same after it. -/
theorem find?_execute_of_bound (hfresh : s.find? (varName turn) = none)
    (hv : (s.find? v).isSome) : (x.execute turn text s).2.find? v = s.find? v := by
  obtain hsame | ⟨rfl, -⟩ := find?_execute x turn text s v
  · exact hsame
  · simp [hfresh] at hv

end Executor

end TaskDialogue
