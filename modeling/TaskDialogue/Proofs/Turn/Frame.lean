import TaskDialogue.Proofs.Turn.Outcome
import TaskDialogue.Proofs.Turn.Subject

/-!
# What a turn leaves alone

A turn adds objects to the store, changes the object that its variable is bound to, and tells the
task of the outstanding recommendation that it was followed. It binds the variable of the turn, and
completes at most one variable. Everything else is after the turn what it was before, whether the
turn succeeds or fails.
-/
namespace TaskDialogue

/-- Whether a call may change an object: the command that it runs, or what its variable is bound to
when it writes. -/
def CallKind.Touches (var : String) (s : State) (id : Nat) : CallKind → Prop
  | command object _ => object = id
  | assignment _ | append _ _ => s.find? var = some (.object id)
  | perform _ | next _ | value _ => False

namespace Exec

variable {var : String} {kind : CallKind} {target : TaskRef} {index id : Nat} {s t : State}

/-- The records stay as they are. -/
theorem context_turn (registry : Registry) (context : AppContext) :
    TurnInvariant registry (fun s => s.context = context) (fun _ _ => True) (fun _ _ => True)
      (fun _ _ => True) := by
  refine .of_state (fun _ hs => hs) (fun _ _ hs => hs) (fun _ _ hs => hs) (fun {s} hs => ?_)
    (fun hs _ _ hcontext => hcontext.trans hs)
  unfold State.followRecommendation
  split
  · exact hs
  · split <;> exact hs

/-- The protocol changes what it advances at most. -/
theorem object_performOrRecommend (hid : target.id ≠ id) :
    (performOrRecommend var index target s).2.object id = s.object id := by
  obtain ⟨_, -, h⟩ | ⟨-, ⟨_, -, h⟩ | ⟨_, changed, -, h⟩⟩ :=
    performOrRecommend_cases var index target s
  · rw [h]
    rfl
  · rw [h]
    rfl
  · have hobject := State.object_setTask { s with recommendation := none } target changed id
    rw [if_neg fun hsame => hid hsame.1] at hobject
    rw [h]
    exact hobject

/-- A call changes only what it may touch, also when it fails half way. -/
theorem object_runKind (index : Nat) (hid : id < s.objects.length)
    (htouches : ¬ kind.Touches var s id) : (runKind var index kind s).2.object id = s.object id := by
  have hcopy : ∀ entity, (bindCopy var entity s).2.object id = s.object id := by
    intro entity
    cases entity with
    | none => rfl
    | some e => exact State.object_append hid
  cases kind with
  | command object assigned =>
    have hprotocol : ∀ w : State,
        (performOrRecommend var index ⟨object, none⟩ w).2.object id = w.object id := fun w =>
      object_performOrRecommend htouches
    cases assigned with
    | true => exact hprotocol s
    | false => exact hprotocol (s.bind var (.object object))
  | perform binding =>
    obtain _ | ⟨shared | e⟩ := binding
    · rfl
    · rfl
    · exact hcopy (some e)
  | assignment updates =>
    obtain ⟨hwrites, hlast⟩ := applyUpdates_writes var updates none s
    have hother := hwrites.other id htouches
    simp only [runKind]
    split
    · next heq => rwa [heq] at hother
    · next heq => rwa [heq] at hother
    · next target u heq =>
      rw [heq] at hother hwrites hlast
      have htarget : target.id ≠ id := by
        rintro rfl
        have hfind := (hlast target rfl (by simp)).1
        rw [hwrites.find?] at hfind
        exact htouches hfind
      rw [object_performOrRecommend htarget]
      exact hother
  | append attr value =>
    simp only [runKind]
    split
    · rfl
    · next target hresolve =>
      have htarget : target.id ≠ id := by
        rintro rfl
        exact htouches (State.resolve_targets hresolve).1
      split
      · rfl
      · rw [object_performOrRecommend htarget, State.object_setTask,
          if_neg fun hsame => htarget hsame.1]
  | next entity => exact hcopy entity
  | value value => rfl

/-- A call completes no other variable than its own. -/
theorem gained_runKind {v : String}
    (hassigned : ∀ id, kind = .command id true → s.find? var = some (.object id))
    (h : v ∈ (runKind var index kind s).2.completed) : v ∈ s.completed ∨ v = var := by
  cases hprotocol : protocolTask? var kind s with
  | none => exact .inl (by rwa [(runKind_of_none index hprotocol).1] at h)
  | some r =>
    obtain ⟨target, u⟩ := r
    have hu := completed_protocolTask hassigned hprotocol
    rw [runKind_of_protocolTask index hprotocol] at h
    rw [← hu]
    obtain ⟨_, -, hr⟩ | ⟨-, ⟨_, -, hr⟩ | ⟨_, _, -, hr⟩⟩ :=
      performOrRecommend_cases var index target u
    · exact .inl (by rwa [hr] at h)
    · exact .inl (by rwa [hr] at h)
    · rw [hr] at h
      exact State.mem_complete.mp h

/-- What a call may touch of the objects of before is what the addressed variable is bound to. -/
theorem Addresses.touches {turn : Nat} {call : Call} {subject : Option String}
    (h : Addresses turn s t call subject) (hclassified : Classified turn t call)
    (hid : id < s.objects.length) (htouches : call.kind.Touches call.var t id) :
    subject = some call.var ∧ t.find? call.var = some (.object id) := by
  cases h with
  | subject old =>
    refine ⟨rfl, ?_⟩
    cases hkind : call.kind with
    | command object assigned =>
      rw [hkind] at htouches
      obtain rfl : object = id := htouches
      cases assigned with
      | true => exact hclassified.assigned object hkind
      | false => exact absurd hkind (old object)
    | assignment updates => rwa [hkind] at htouches
    | append attr value => rwa [hkind] at htouches
    | perform _ | next _ | value _ =>
      rw [hkind] at htouches
      exact htouches.elim
  | turn var made =>
    cases hkind : call.kind with
    | command object assigned =>
      rw [hkind] at htouches made
      obtain rfl : object = id := htouches
      exact absurd made.2.1 (Nat.not_le.mpr hid)
    | assignment _ | append _ _ =>
      rw [hkind] at made
      exact made.elim
    | perform _ | next _ | value _ =>
      rw [hkind] at htouches
      exact htouches.elim

end Exec

namespace Executor

/-- What a turn leaves alone. -/
structure Frame (x : Executor) (turn : Nat) (text : String) (s t : State) : Prop where
  context : t.context = s.context
  grows : s.objects.length ≤ t.objects.length
  /-- An object of before is as it was, or the turn addresses a variable that is bound to it, or its
  recommendation was followed. -/
  objects : ∀ id, id < s.objects.length →
    t.object id = s.object id ∨
      (∃ v, x.subject? text = some v ∧ s.find? v = some (.object id)) ∨
      (x.follows text = true ∧ ∃ v action, s.recommendation = some (v, action) ∧
        s.find? v = some (.object id) ∧ t.object id = (s.object id).notify action.name)
  bindings : ∀ v, v ≠ varName turn → t.find? v = s.find? v
  kept : ∀ v, v ∈ s.completed → v ∈ t.completed
  gained : ∀ v, v ∈ t.completed → v ∈ s.completed ∨ x.subject? text = some v ∨ v = varName turn

variable {x : Executor} {turn : Nat} {text : String} {s u : State} {call : Call}

theorem context_execute (x : Executor) (turn : Nat) (text : String) (s : State) :
    (x.execute turn text s).2.context = s.context :=
  (Exec.context_turn x.registry s.context).execute turn text rfl

/-- In the state that a call is applied to the objects of before are as they were, but for the one
whose recommendation is followed. -/
theorem object_call? (h : x.call? turn text s = some (call, u)) {id : Nat}
    (hid : id < s.objects.length) :
    u.object id = s.object id ∨
      (x.follows text = true ∧ ∃ v action, s.recommendation = some (v, action) ∧
        s.find? v = some (.object id) ∧ u.object id = (s.object id).notify action.name) := by
  obtain ⟨w, hmakes, rfl, -⟩ := call?_addresses h
  have hobject : w.object id = s.object id := hmakes.object_of_lt hid
  cases hfollows : x.follows text with
  | false => exact .inl hobject
  | true =>
    have hrecommendation : w.recommendation = s.recommendation := by rw [hmakes.rest]
    have hfind : ∀ v, w.find? v = s.find? v := fun v => by rw [hmakes.rest]; rfl
    obtain hsame | ⟨v, action, hoffered, hv, hnotified⟩ := w.object_followRecommendation id
    · exact .inl (hsame.trans hobject)
    · rw [hobject] at hnotified
      exact .inr ⟨rfl, v, action, hrecommendation ▸ hoffered, hfind v ▸ hv, hnotified⟩

/-- A turn changes what it addresses, and of all other objects of before the one whose
recommendation it follows. -/
theorem object_execute (x : Executor) (turn : Nat) (text : String) {id : Nat}
    (hid : id < s.objects.length) :
    (x.execute turn text s).2.object id = s.object id ∨
      (∃ v, x.subject? text = some v ∧ s.find? v = some (.object id)) ∨
      (x.follows text = true ∧ ∃ v action, s.recommendation = some (v, action) ∧
        s.find? v = some (.object id) ∧
          (x.execute turn text s).2.object id = (s.object id).notify action.name) := by
  cases hcall : x.call? turn text s with
  | none => exact .inl ((execute_of_no_call hcall).2.object_of_lt hid)
  | some r =>
    obtain ⟨call, u⟩ := r
    obtain ⟨hclassified, hbindings, -, -⟩ := call?_cases hcall
    obtain ⟨w, -, -, haddresses⟩ := call?_addresses hcall
    by_cases htouches : call.kind.Touches call.var u id
    · obtain ⟨hsubject, hfind⟩ := haddresses.touches hclassified hid htouches
      rw [State.find?, hbindings] at hfind
      exact .inr (.inl ⟨call.var, hsubject, hfind⟩)
    · have hlength := (call?_objects hcall).2.1
      have hrun := Exec.object_runKind call.index (Nat.lt_of_lt_of_le hid hlength) htouches
      rw [execute_of_call hcall, hrun]
      exact (object_call? hcall hid).imp_right .inr

/-- A turn completes at most what it addresses, or else its own variable. -/
theorem gained_execute {v : String} (h : v ∈ (x.execute turn text s).2.completed) :
    v ∈ s.completed ∨ x.subject? text = some v ∨ v = varName turn := by
  cases hcall : x.call? turn text s with
  | none =>
    rw [(execute_of_no_call hcall).2.rest] at h
    exact .inl h
  | some r =>
    obtain ⟨call, u⟩ := r
    obtain ⟨hclassified, -, hcompleted, -⟩ := call?_cases hcall
    obtain ⟨w, -, -, haddresses⟩ := call?_addresses hcall
    rw [execute_of_call hcall] at h
    obtain hbefore | rfl := Exec.gained_runKind hclassified.assigned h
    · exact .inl (hcompleted ▸ hbefore)
    · generalize x.subject? text = subject at haddresses ⊢
      cases haddresses with
      | subject _ => exact .inr (.inl rfl)
      | turn var _ => exact .inr (.inr var)

/-- A turn leaves alone all that it does not address, however it ends: the records, the bindings of
all variables but its own, what was completed, and the objects of before but for the one that the
addressed variable is bound to and the one whose recommendation it follows. Where only the sugars
are expanded, the addressed variable is read off the text as it is written. -/
theorem execute_frame (x : Executor) (turn : Nat) (text : String) (s : State) :
    Frame x turn text s (x.execute turn text s).2 ∧
      subject? { x with rewriter := Sugar.defaults } text =
        (x.statement? text).bind Stmt.writtenSubject? := by
  refine ⟨?_, subject?_defaults x text⟩
  constructor
  · exact context_execute x turn text s
  · exact length_execute x turn text s
  · intro id hid
    exact object_execute x turn text hid
  · intro v hv
    exact (find?_execute x turn text s v).resolve_right fun hturn => hv hturn.1
  · intro v hv
    exact completed_execute_mono hv
  · intro v hv
    exact gained_execute hv

end Executor

end TaskDialogue
