import TaskDialogue.Proofs.Turn.Advance
import TaskDialogue.Proofs.Turn.Effects

/-!
# The steps of a turn

A turn makes commands, may tell the task of a recommendation that it was followed, writes to what
its variable means, copies entities, and performs what asks for nothing. What each of these steps
keeps is kept by every turn, whether it succeeds or fails.
-/
namespace TaskDialogue

/-- An invariant of the objects of a state that the steps of a turn keep. -/
structure StepInvariant (P : State → Prop) : Prop where
  congr : ∀ {s t : State}, P s → t.objects = s.objects → P t
  makes : ∀ {s t : State}, Exec.Makes Exec.Unperformed s t → P s → P t
  copy : ∀ {s : State} (e : Entity), P s → P (s.alloc (.entity e))
  follow : ∀ {s : State}, P s → P s.followRecommendation
  write : ∀ {s : State} {var index target changed}, s.resolve var index = .ok target →
    (s.task target).Written changed → P s → P (s.setTask target changed)
  perform : ∀ {s : State} {var target output changed}, s.Targets var target →
    (s.task target).recommend? = none →
      (s.task target).perform s.context = .ok (output, changed) → P s →
        P (s.setTask target changed)

namespace Exec

section

variable {P : State → Prop} {var : String} {kind : CallKind} {target : TaskRef} {s : State}
  (congr : ∀ {s t : State}, P s → t.objects = s.objects → P t)
  (copy : ∀ {s : State} (e : Entity), P s → P (s.alloc (.entity e)))
  (write : ∀ {s : State} {var index target changed}, s.resolve var index = .ok target →
    (s.task target).Written changed → P s → P (s.setTask target changed))
  (perform : ∀ {s : State} {var target output changed}, s.Targets var target →
    (s.task target).recommend? = none →
      (s.task target).perform s.context = .ok (output, changed) → P s →
        P (s.setTask target changed))

include congr copy in
theorem bindCopy_preserves (var : String) (entity : Option Entity) (hs : P s) :
    P (bindCopy var entity s).2 := by
  cases entity with
  | none => exact congr hs rfl
  | some e => exact congr (copy e hs) rfl

include congr perform in
theorem performOrRecommend_preserves (index : Nat) (ht : s.Targets var target) (hs : P s) :
    P (performOrRecommend var index target s).2 := by
  obtain ⟨_, -, hr⟩ | ⟨hasks, ⟨_, -, hr⟩ | ⟨_, changed, hperform, hr⟩⟩ :=
    performOrRecommend_cases var index target s
  · rw [hr]
    exact congr hs rfl
  · rw [hr]
    exact congr hs rfl
  · rw [hr]
    exact congr (perform ht hasks hperform hs) rfl

include congr copy write perform in
/-- What the steps of a call keep is kept by the call. -/
theorem runKind_preserves (index : Nat)
    (hassigned : ∀ id, kind = .command id true → s.find? var = some (.object id)) (hs : P s) :
    P (runKind var index kind s).2 := by
  cases hprotocol : protocolTask? var kind s with
  | some r =>
    obtain ⟨target, u⟩ := r
    rw [runKind_of_protocolTask index hprotocol]
    refine performOrRecommend_preserves congr perform index
      (protocolTask?_cases hassigned hprotocol).1 ?_
    refine protocolTask?_preserves hprotocol (fun id _ hw => congr hw rfl) ?_ hs
    intro w place changed i attr v hresolve hset _ hw
    exact write hresolve (TaskObject.set_written hset) hw
  | none =>
    cases kind with
    | command id assigned => simp [protocolTask?] at hprotocol
    | perform binding =>
      obtain _ | ⟨id | e⟩ := binding
      · exact hs
      · exact congr hs rfl
      · exact bindCopy_preserves congr copy var (some e) hs
    | assignment updates =>
      have hupdated : P (applyUpdates var updates none s).2 := by
        refine applyUpdates_preserves ?_ hs
        intro w place changed update _ hresolve hset hw
        exact write hresolve (TaskObject.set_written hset) hw
      simp only [protocolTask?] at hprotocol
      simp only [runKind]
      split
      · next heq => rwa [heq] at hupdated
      · next heq => rwa [heq] at hupdated
      · next heq => simp [heq] at hprotocol
    | append attr value =>
      simp only [protocolTask?] at hprotocol
      simp only [runKind]
      split
      · exact hs
      · next hplace =>
        split
        · exact hs
        · next happend => simp [hplace, happend] at hprotocol
    | next entity => exact bindCopy_preserves congr copy var entity hs
    | value value => exact congr hs rfl

end

end Exec

/-- What the steps of a turn keep is kept by the turn. -/
theorem StepInvariant.execute {P : State → Prop} {s : State} (h : StepInvariant P) (x : Executor)
    (turn : Nat) (text : String) (hs : P s) : P (x.execute turn text s).2 := by
  cases hcall : x.call? turn text s with
  | none => exact h.makes (Executor.execute_of_no_call hcall).2 hs
  | some r =>
    obtain ⟨call, u⟩ := r
    obtain ⟨w, hmakes, -, hu⟩ := Executor.call?_made hcall
    have hassigned := (Executor.call?_cases hcall).1.assigned
    rw [Executor.execute_of_call hcall]
    refine Exec.runKind_preserves h.congr h.copy h.write h.perform call.index hassigned ?_
    obtain rfl | rfl := hu
    · exact h.makes hmakes hs
    · exact h.follow (h.makes hmakes hs)

end TaskDialogue
