import TaskDialogue.Proofs.Turn.Classification

/-!
# The protocol that a call runs

Three kinds of calls advance a task: they prepare the state, by binding the task or by
writing to it, and then recommend or perform. All others bind a value, or do nothing. What
is prepared and what the protocol does are told apart here, so that each effect of a turn is
traced to one of the two.
-/
namespace TaskDialogue

namespace State

/-- Some objects were written to, and nothing else is different. What was written to is what
the variable is bound to. -/
structure Writes (var : String) (s u : State) : Prop where
  rest : u = { s with objects := u.objects }
  other : ∀ id, s.find? var ≠ some (.object id) → u.object id = s.object id
  resultCount : ∀ id, (u.object id).resultCount = (s.object id).resultCount

namespace Writes

variable {var : String} {s u w : State}

theorem refl (var : String) (s : State) : s.Writes var s := ⟨rfl, fun _ _ => rfl, fun _ => rfl⟩

theorem find? (h : s.Writes var u) (v : String) : u.find? v = s.find? v := by
  rw [h.rest]
  rfl

theorem trans (first : s.Writes var u) (last : u.Writes var w) : s.Writes var w where
  rest := by rw [last.rest, first.rest]
  other id hid := by
    rw [last.other id (by rwa [first.find?]), first.other id hid]
  resultCount id := by rw [last.resultCount, first.resultCount]

theorem targets (h : s.Writes var u) {v : String} {target : TaskRef} (ht : s.Targets v target) :
    u.Targets v target :=
  ⟨by rw [h.find?]; exact ht.1, fun position hp => by rw [h.resultCount]; exact ht.2 position hp⟩

theorem setTask {target : TaskRef} {changed : TaskObject} (ht : s.Targets var target)
    (hw : (s.task target).Written changed) : s.Writes var (s.setTask target changed) where
  rest := rfl
  other id hid := by
    rw [object_setTask, if_neg]
    rintro ⟨rfl, -⟩
    exact hid ht.1
  resultCount id := by
    rw [object_setTask]
    split
    · next h =>
      obtain ⟨rfl, -⟩ := h
      exact TaskObject.resultCount_withPart hw
    · rfl

end Writes

end State

namespace Exec

variable {var : String} {s u : State}

/-- The writes of an assignment go to what its variable is bound to, and the last of them to
the target of the turn. -/
theorem applyUpdates_writes (var : String) (updates : List AttributeUpdate)
    (target : Option TaskRef) (s : State) :
    s.Writes var (applyUpdates var updates target s).2 ∧
      ∀ last, (applyUpdates var updates target s).1 = .ok (some last) →
        (∀ place, target = some place → s.Targets var place) →
          (applyUpdates var updates target s).2.Targets var last := by
  induction updates generalizing target s with
  | nil =>
    refine ⟨.refl var s, fun last h htarget => htarget last ?_⟩
    simpa [applyUpdates] using h
  | cons update updates ih =>
    simp only [applyUpdates]
    split
    · exact ⟨.refl var s, by simp⟩
    · next place hplace =>
      split
      · exact ⟨.refl var s, by simp⟩
      · next changed hset =>
        have hp := State.resolve_targets hplace
        have hwrites := State.Writes.setTask hp (TaskObject.set_written hset)
        obtain ⟨hrest, hlast⟩ := ih (some place) (s.setTask place changed)
        refine ⟨hwrites.trans hrest, fun last h _ => hlast last h ?_⟩
        rintro _ ⟨rfl⟩
        exact hwrites.targets hp

/-- The task that a call advances, and the state in which it does. -/
def protocolTask? (var : String) (kind : CallKind) (s : State) : Option (TaskRef × State) :=
  match kind with
  | .command id assigned => some (⟨id, none⟩, if assigned then s else s.bind var (.object id))
  | .assignment updates =>
    match applyUpdates var updates none s with
    | (.ok (some target), s) => some (target, s)
    | _ => none
  | .append attr value =>
    match s.resolve var none with
    | .error _ => none
    | .ok target =>
      match (s.task target).append attr value with
      | .error _ => none
      | .ok changed => some (target, s.setTask target changed)
  | .perform _ | .next _ | .value _ => none

/-- The three ways in which a call comes to its task. -/
theorem protocolTask?_eq_some {kind : CallKind} {target : TaskRef}
    (h : protocolTask? var kind s = some (target, u)) :
    (∃ id assigned, kind = .command id assigned ∧ target = ⟨id, none⟩ ∧
        u = if assigned then s else s.bind var (.object id)) ∨
      (∃ updates, kind = .assignment updates ∧
        applyUpdates var updates none s = (.ok (some target), u)) ∨
      ∃ attr value changed, kind = .append attr value ∧ s.resolve var none = .ok target ∧
        (s.task target).append attr value = .ok changed ∧ u = s.setTask target changed := by
  cases kind with
  | command id assigned =>
    simp only [protocolTask?, Option.some.injEq, Prod.mk.injEq] at h
    exact .inl ⟨id, assigned, rfl, h.1.symm, h.2.symm⟩
  | assignment updates =>
    simp only [protocolTask?] at h
    split at h
    · next heq =>
      simp only [Option.some.injEq, Prod.mk.injEq] at h
      obtain ⟨rfl, rfl⟩ := h
      exact .inr (.inl ⟨updates, rfl, heq⟩)
    · simp at h
  | append attr value =>
    simp only [protocolTask?] at h
    split at h
    · simp at h
    · next hplace =>
      split at h
      · simp at h
      · next changed happend =>
        simp only [Option.some.injEq, Prod.mk.injEq] at h
        obtain ⟨rfl, rfl⟩ := h
        exact .inr (.inr ⟨attr, value, changed, rfl, hplace, happend, rfl⟩)
  | perform _ | next _ | value _ => simp [protocolTask?] at h

/-- A call that advances a task ends with what the protocol makes of it. -/
theorem runKind_of_protocolTask {kind : CallKind} {target : TaskRef} (index : Nat)
    (h : protocolTask? var kind s = some (target, u)) :
    runKind var index kind s = performOrRecommend var index target u := by
  obtain ⟨id, assigned, rfl, rfl, rfl⟩ | ⟨updates, rfl, heq⟩ |
    ⟨attr, value, changed, rfl, hplace, happend, rfl⟩ := protocolTask?_eq_some h
  · rfl
  · simp only [runKind, heq]
  · simp only [runKind, hplace, happend]

/-- What is recommended is for the variable of the call, and nothing was performed. What is
performed asked for nothing, and its variable is completed. -/
theorem performOrRecommend_cases (var : String) (index : Nat) (target : TaskRef) (s : State) :
    (∃ action, (s.task target).recommend? = some action ∧
      performOrRecommend var index target s =
        (.ok (.recommended index action), { s with recommendation := some (var, action) })) ∨
    ((s.task target).recommend? = none ∧
      ((∃ cause, (s.task target).perform s.context = .error cause ∧
          performOrRecommend var index target s =
            (.error (.perform var cause), { s with recommendation := none })) ∨
        ∃ output changed, (s.task target).perform s.context = .ok (output, changed) ∧
          performOrRecommend var index target s =
            (.ok (.performed index output),
              ({ s with recommendation := none }.setTask target changed).complete var))) := by
  unfold performOrRecommend
  cases hask : (s.task target).recommend? with
  | some action => exact .inl ⟨action, rfl, rfl⟩
  | none =>
    refine .inr ⟨rfl, ?_⟩
    have htask : State.task { s with recommendation := none } target = s.task target := rfl
    dsimp only
    rw [htask]
    cases hperform : (s.task target).perform s.context with
    | error cause => exact .inl ⟨cause, rfl, rfl⟩
    | ok r => exact .inr ⟨r.1, r.2, rfl, rfl⟩

/-- What is advanced is what the variable is bound to by then, and only that was written to. -/
theorem protocolTask?_cases {kind : CallKind} {target : TaskRef}
    (hassigned : ∀ id, kind = .command id true → s.find? var = some (.object id))
    (h : protocolTask? var kind s = some (target, u)) :
    u.Targets var target ∧
      ((kind = .command target.id false ∧ u = s.bind var (.object target.id)) ∨
        s.Writes var u) := by
  obtain ⟨id, assigned, rfl, rfl, rfl⟩ | ⟨updates, rfl, heq⟩ |
    ⟨attr, value, changed, rfl, hplace, happend, rfl⟩ := protocolTask?_eq_some h
  · cases assigned with
    | true => exact ⟨⟨hassigned id rfl, by simp⟩, .inr (.refl var s)⟩
    | false => exact ⟨⟨by simp [State.find?_bind], by simp⟩, .inl ⟨rfl, rfl⟩⟩
  · obtain ⟨hwrites, hlast⟩ := applyUpdates_writes var updates none s
    rw [heq] at hwrites hlast
    exact ⟨hlast _ rfl (by simp), .inr hwrites⟩
  · have hp := State.resolve_targets hplace
    have hwrites := State.Writes.setTask hp (TaskObject.append_written happend)
    exact ⟨hwrites.targets hp, .inr hwrites⟩

theorem completed_protocolTask {kind : CallKind} {target : TaskRef}
    (hassigned : ∀ id, kind = .command id true → s.find? var = some (.object id))
    (h : protocolTask? var kind s = some (target, u)) : u.completed = s.completed := by
  obtain ⟨-, ⟨-, rfl⟩ | hwrites⟩ := protocolTask?_cases hassigned h
  · rfl
  · rw [hwrites.rest]

/-! ### Bindings -/

theorem find?_performOrRecommend (var : String) (index : Nat) (target : TaskRef) (s : State)
    (v : String) : (performOrRecommend var index target s).2.find? v = s.find? v := by
  obtain ⟨_, -, h⟩ | ⟨-, ⟨_, -, h⟩ | ⟨_, _, -, h⟩⟩ := performOrRecommend_cases var index target s <;>
    rw [h] <;> rfl

/-- A call binds its own variable at most, and no other, also when it fails. -/
theorem find?_runKind (var : String) (index : Nat) (kind : CallKind) (s : State) (v : String) :
    (runKind var index kind s).2.find? v =
      match bound? s kind with
      | some value => if var = v then some value else s.find? v
      | none => s.find? v := by
  cases kind with
  | command id assigned =>
    simp only [runKind, find?_performOrRecommend]
    cases assigned with
    | true => rfl
    | false => simp [bound?, State.find?_bind]
  | perform binding =>
    obtain _ | ⟨id | e⟩ := binding
    · rfl
    · simp [runKind, bound?, State.find?_bind]
    · simp only [runKind, bindCopy, bound?, State.find?_bind]
      rfl
  | assignment updates =>
    have hwrites := (applyUpdates_writes var updates none s).1.find? v
    simp only [runKind, bound?]
    split
    · next heq => rwa [heq] at hwrites
    · next heq => rwa [heq] at hwrites
    · next heq =>
      rw [heq] at hwrites
      rw [find?_performOrRecommend, hwrites]
  | append attr value =>
    simp only [runKind, bound?]
    split
    · rfl
    · split
      · rfl
      · rw [find?_performOrRecommend]
        rfl
  | next entity =>
    cases entity with
    | none => simp [runKind, bindCopy, bound?, State.find?_bind]
    | some e =>
      simp only [runKind, bindCopy, bound?, State.find?_bind]
      rfl
  | value value => simp [runKind, bound?, State.find?_bind]

/-! ### Completion and results -/

/-- A copied entity has no results, and neither has what is beyond the store. -/
theorem resultCount_bindCopy (var : String) (entity : Option Entity) (s : State) (id : Nat) :
    ((bindCopy var entity s).2.object id).resultCount = (s.object id).resultCount := by
  cases entity with
  | none => rfl
  | some e =>
    have hobject : (bindCopy var (some e) s).2.object id = (s.alloc (.entity e)).object id := rfl
    rw [hobject, State.object_alloc]
    split
    · next h => rw [h, State.object_of_le (Nat.le_refl _)]; rfl
    · rfl

/-- A call that advances no task completes nothing, recommends nothing and finds nothing. -/
theorem runKind_of_none {kind : CallKind} (index : Nat) (h : protocolTask? var kind s = none) :
    (runKind var index kind s).2.completed = s.completed ∧
      (∀ r, (runKind var index kind s).1 = .ok r → r.recommendedAction = none) ∧
      ∀ id, ((runKind var index kind s).2.object id).resultCount =
        (s.object id).resultCount := by
  cases kind with
  | command id assigned => simp [protocolTask?] at h
  | perform binding =>
    obtain _ | ⟨id | e⟩ := binding
    · exact ⟨rfl, by rintro _ ⟨rfl⟩; rfl, fun _ => rfl⟩
    · exact ⟨rfl, by rintro _ ⟨rfl⟩; rfl, fun _ => rfl⟩
    · exact ⟨rfl, by rintro _ ⟨rfl⟩; rfl, resultCount_bindCopy var (some e) s⟩
  | assignment updates =>
    have hwrites := (applyUpdates_writes var updates none s).1
    simp only [protocolTask?] at h
    simp only [runKind]
    split at h
    · simp at h
    · next hne =>
      split
      · next heq =>
        rw [heq] at hwrites
        exact ⟨by rw [hwrites.rest], by simp, hwrites.resultCount⟩
      · next heq =>
        rw [heq] at hwrites
        exact ⟨by rw [hwrites.rest], by rintro _ ⟨rfl⟩; rfl, hwrites.resultCount⟩
      · next heq => exact absurd heq (hne _ _)
  | append attr value =>
    simp only [protocolTask?, runKind] at h ⊢
    cases hplace : s.resolve var none with
    | error e => simp
    | ok place =>
      simp only [hplace] at h ⊢
      cases happend : (s.task place).append attr value with
      | error e => simp
      | ok changed => simp [happend] at h
  | next entity =>
    refine ⟨?_, by rintro _ ⟨rfl⟩; rfl, resultCount_bindCopy var entity s⟩
    cases entity <;> rfl
  | value value => exact ⟨rfl, by rintro _ ⟨rfl⟩; rfl, fun _ => rfl⟩

/-- To perform something changes the number of its results only when it is the whole of an
object. -/
theorem resultCount_perform {target : TaskRef} {context : AppContext}
    {output : Option ActionOutput} {changed : TaskObject} (ht : s.Targets var target)
    (h : (s.task target).perform context = .ok (output, changed)) (id : Nat) :
    ((s.setTask target changed).object id).resultCount = (s.object id).resultCount ∨
      target = ⟨id, none⟩ := by
  rw [State.object_setTask]
  split
  · next hid =>
    obtain ⟨rfl, -⟩ := hid
    obtain ⟨place, entity⟩ := target
    cases entity with
    | none => exact .inr rfl
    | some position =>
      obtain ⟨e, he⟩ := TaskObject.part_entity (ht.2 position rfl)
      have htask : s.task ⟨place, some position⟩ = .entity e := he
      rw [htask] at h
      simp only [TaskObject.perform, Except.ok.injEq, Prod.mk.injEq] at h
      refine .inl (TaskObject.resultCount_withPart ?_)
      rw [he, ← h.2]
      exact .entity rfl rfl
  · exact .inl rfl

/-- The task that a call performs: what it advances, when this asks for nothing more. -/
def performance? (var : String) (kind : CallKind) (s : State) : Option TaskRef :=
  match protocolTask? var kind s with
  | some (target, s) => if (s.task target).recommend?.isNone then some target else none
  | none => none

/-- What is completed by a call was performed by it, through the variable of the call. -/
theorem completed_runKind {kind : CallKind} {index : Nat} {v : String}
    (hassigned : ∀ id, kind = .command id true → s.find? var = some (.object id))
    (h : v ∈ (runKind var index kind s).2.completed) :
    v ∈ s.completed ∨
      ∃ target, performance? var kind s = some target ∧
        (runKind var index kind s).2.find? v = some (.object target.id) ∧
        (target.entity = none ∨ (s.object target.id).resultCount ≠ 0) := by
  cases hprotocol : protocolTask? var kind s with
  | none => exact .inl (by rwa [(runKind_of_none index hprotocol).1] at h)
  | some r =>
    obtain ⟨target, u⟩ := r
    obtain ⟨ht, hu⟩ := protocolTask?_cases hassigned hprotocol
    have hcompleted := completed_protocolTask hassigned hprotocol
    rw [runKind_of_protocolTask index hprotocol] at h ⊢
    rw [find?_performOrRecommend]
    obtain ⟨_, -, hr⟩ | ⟨hask, ⟨_, -, hr⟩ | ⟨_, _, -, hr⟩⟩ :=
      performOrRecommend_cases var index target u
    · rw [hr] at h
      exact .inl (hcompleted ▸ h)
    · rw [hr] at h
      exact .inl (hcompleted ▸ h)
    · rw [hr] at h
      obtain hv | rfl := State.mem_complete.mp h
      · exact .inl (hcompleted ▸ hv)
      · refine .inr ⟨target, by simp [performance?, hprotocol, hask], ht.1, ?_⟩
        cases hentity : target.entity with
        | none => exact .inl rfl
        | some position =>
          have hlt := ht.2 position hentity
          obtain ⟨-, rfl⟩ | hwrites := hu
          · exact .inr (Nat.ne_of_gt (Nat.lt_of_le_of_lt (Nat.zero_le _) hlt))
          · rw [hwrites.resultCount] at hlt
            exact .inr (Nat.ne_of_gt (Nat.lt_of_le_of_lt (Nat.zero_le _) hlt))

theorem completed_runKind_mono {kind : CallKind} {index : Nat} {v : String}
    (hassigned : ∀ id, kind = .command id true → s.find? var = some (.object id))
    (h : v ∈ s.completed) : v ∈ (runKind var index kind s).2.completed := by
  cases hprotocol : protocolTask? var kind s with
  | none => rwa [(runKind_of_none index hprotocol).1]
  | some r =>
    obtain ⟨target, u⟩ := r
    have hu := completed_protocolTask hassigned hprotocol
    rw [runKind_of_protocolTask index hprotocol]
    obtain ⟨_, -, hr⟩ | ⟨-, ⟨_, -, hr⟩ | ⟨_, _, -, hr⟩⟩ :=
      performOrRecommend_cases var index target u
    · rw [hr]
      exact hu ▸ h
    · rw [hr]
      exact hu ▸ h
    · rw [hr]
      exact State.mem_complete.mpr (.inl (hu ▸ h))

/-- What has results after a call had some before, or was performed by the call. -/
theorem resultCount_runKind {kind : CallKind} {index id : Nat}
    (hassigned : ∀ id, kind = .command id true → s.find? var = some (.object id))
    (h : ((runKind var index kind s).2.object id).resultCount ≠ 0) :
    (s.object id).resultCount ≠ 0 ∨ performance? var kind s = some ⟨id, none⟩ := by
  cases hprotocol : protocolTask? var kind s with
  | none => exact .inl (by rwa [(runKind_of_none index hprotocol).2.2] at h)
  | some r =>
    obtain ⟨target, u⟩ := r
    obtain ⟨ht, hu⟩ := protocolTask?_cases hassigned hprotocol
    have hcount : (u.object id).resultCount = (s.object id).resultCount := by
      obtain ⟨-, rfl⟩ | hwrites := hu
      · rfl
      · exact hwrites.resultCount id
    rw [runKind_of_protocolTask index hprotocol] at h
    obtain ⟨_, -, hr⟩ | ⟨hask, ⟨_, -, hr⟩ | ⟨_, changed, hperform, hr⟩⟩ :=
      performOrRecommend_cases var index target u
    · rw [hr] at h
      exact .inl (hcount ▸ h)
    · rw [hr] at h
      exact .inl (hcount ▸ h)
    · rw [hr] at h
      obtain hsame | rfl := resultCount_perform ht hperform id
      · refine .inl ?_
        rw [← hcount, ← hsame]
        exact h
      · exact .inr (by simp [performance?, hprotocol, hask])

end Exec

end TaskDialogue
