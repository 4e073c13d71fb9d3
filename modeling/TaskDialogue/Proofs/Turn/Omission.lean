import TaskDialogue.Proofs.Turn.Closure
import TaskDialogue.Proofs.Turn.Outcome
import TaskDialogue.Proofs.Turn.Renaming
import TaskDialogue.Proofs.Turn.Sequence

/-!
# Leaving out turns that find no call

A turn that fails before it has a call leaves nothing behind but commands that nobody knows of, and
these move the places of all objects that come later. So the other turns end without it as they end
with it, up to the names of places. The renaming grows with the run: each turn that is left out
moves the places where the next objects go, and none of those that are taken.
-/
namespace TaskDialogue

/-! ### Places of results -/

namespace Exec

variable {s t : State} {r : ActionResult}

/-- What the protocol hands back names no places. -/
theorem ids_performOrRecommend {var : String} {index : Nat} {target : TaskRef}
    (h : s.context.Literal) (hr : (performOrRecommend var index target s).1 = .ok r) :
    r.ids = [] := by
  obtain ⟨_, -, hend⟩ | ⟨-, ⟨_, -, hend⟩ | ⟨output, _, hperform, hend⟩⟩ :=
    performOrRecommend_cases var index target s
  · rw [hend, Except.ok.injEq] at hr
    exact hr ▸ rfl
  · simp [hend] at hr
  · rw [hend, Except.ok.injEq] at hr
    subst hr
    cases output with
    | none => rfl
    | some output => exact TaskObject.ids_perform h hperform

/-- A call hands back what it binds or what the protocol does. -/
theorem below_runKind {var : String} {index : Nat} {kind : CallKind} (h : s.context.Literal)
    (hkind : kind.Holds (fun s v => Below s.objects.length v.ids)
      (fun s e => Below s.objects.length e.ids) s)
    (hr : (runKind var index kind s).1 = .ok r) :
    Below (runKind var index kind s).2.objects.length r.ids := by
  cases hprotocol : protocolTask? var kind s with
  | some p =>
    obtain ⟨target, u⟩ := p
    have hcontext : u.context = s.context := by rw [protocolTask?_rest hprotocol]
    rw [runKind_of_protocolTask index hprotocol] at hr ⊢
    rw [ids_performOrRecommend (hcontext ▸ h) hr]
    exact Below.nil
  | none =>
    cases kind with
    | command _ _ => simp [protocolTask?] at hprotocol
    | perform binding =>
      rcases binding with _ | _ | _ <;> (cases hr; exact Below.nil)
    | assignment updates =>
      simp only [protocolTask?] at hprotocol
      simp only [runKind] at hr ⊢
      split at hr
      · simp at hr
      · cases hr
        exact Below.nil
      · next heq => simp [heq] at hprotocol
    | append attr v =>
      simp only [protocolTask?] at hprotocol
      simp only [runKind] at hr ⊢
      split at hr
      · simp at hr
      · next hplace =>
        split at hr
        · simp at hr
        · next happend => simp [hplace, happend] at hprotocol
    | next entity =>
      cases hr
      cases entity with
      | none => exact Below.nil
      | some e => simp [runKind, bindCopy, ActionResult.ids, ActionResult.performed,
          ActionOutput.ids, State.bind, State.alloc, State.nextId]
    | value v =>
      cases hr
      exact hkind

end Exec

namespace Executor

variable {x : Executor} {turn : Nat} {text : String} {s t : State} {r : ActionResult}
  {f g : Nat → Nat}

/-- What a turn of a closed state hands back names places of the state that it leaves. -/
theorem below_execute (hs : s.Closed) (hr : (x.execute turn text s).1 = .ok r) :
    Below (x.execute turn text s).2.objects.length r.ids := by
  unfold execute at hr ⊢
  split at hr
  · simp at hr
  · next p followed _ =>
    have hcall := (Exec.closed_call x.registry).classify x.options.multiTargetPolicy turn p hs
    simp only [executeProgram, classify] at hr ⊢
    split at hr
    · simp at hr
    · next call u heq =>
      rw [heq] at hcall
      have hkind := hcall.result call rfl
      cases followed with
      | false => exact Exec.below_runKind hcall.state.context hkind hr
      | true =>
        exact Exec.below_runKind hcall.state.followRecommendation.context
          ((Exec.closed_turn x.registry).holds_followRecommendation hkind) hr

end Executor

/-! ### Objects that nobody knows of -/

/-- Objects that are added to the fuller one of two states that match move the places where the next
objects go. No other place is moved, and none of these occurs in a closed state. -/
theorem State.Matches.grow {f : Nat → Nat} {s t : State} (h : s.Matches f t) (hs : s.Closed)
    (made : List TaskObject) :
    ∃ g, (∀ id, id < s.objects.length → g id = f id) ∧
      s.Matches g { t with objects := t.objects ++ made } := by
  let g : Nat → Nat := fun id =>
    if id < s.objects.length then f id
    else t.objects.length + made.length + (id - s.objects.length)
  have hold : ∀ id, id < s.objects.length → g id = f id := fun id hid => if_pos hid
  have hnew : ∀ id, ¬ id < s.objects.length →
      g id = t.objects.length + made.length + (id - s.objects.length) := fun id hid => if_neg hid
  have hagree : ∀ ids, Below s.objects.length ids → ∀ id ∈ ids, f id = g id :=
    fun ids hids id hid => (hold id (hids id hid)).symm
  refine ⟨g, hold, ?_⟩
  exact { h with
    injective := by
      intro i j hij
      by_cases hi : i < s.objects.length
      · have hfi := (h.objects i hi).1
        by_cases hj : j < s.objects.length
        · rw [hold i hi, hold j hj] at hij
          exact h.injective hij
        · rw [hold i hi, hnew j hj] at hij
          omega
      · by_cases hj : j < s.objects.length
        · have hfj := (h.objects j hj).1
          rw [hnew i hi, hold j hj] at hij
          omega
        · rw [hnew i hi, hnew j hj] at hij
          omega
    objects := fun id hid => by
      obtain ⟨hlt, hobject⟩ := h.objects id hid
      have hsame := TaskObject.rename_congr (hagree _ (hs.object id))
      rw [hold id hid, object_append hlt, hobject, hsame]
      exact ⟨by simpa using Nat.lt_add_right _ hlt, rfl⟩
    bindings := h.bindings.trans (renameNamed_congr fun b hb => hagree _ (hs.bindings b hb))
    beyond := fun k => by
      rw [hnew _ (by omega)]
      simp }

namespace Executor

variable {x : Executor} {s t : State} {f : Nat → Nat}

/-- The turns of a sequence that find a call, each with its result or error. The others fail when
their text is read or their statement is classified. -/
def called (x : Executor) :
    List (Nat × String) → State → List ((Nat × String) × Except ExecError ActionResult)
  | [], _ => []
  | (turn, text) :: rest, s =>
    let later := x.called rest (x.execute turn text s).2
    if (x.call? turn text s).isSome then ((turn, text), (x.execute turn text s).1) :: later
    else later

/-- From states that match, the turns that find a call do the same alone as among all turns. A turn that
finds none gives the fuller state objects that the other one has not, and the renaming makes room for
them. What the renaming hands back for a turn stays as it is, since later turns move only places that
are not taken yet. -/
theorem called_matched (h : s.Matches f t) (hs : s.Closed) (lines : List (Nat × String)) :
    let kept := x.called lines t
    ∃ g, (∀ id, id < s.objects.length → g id = f id) ∧
      kept.map (·.2) =
        (x.trace (kept.map (·.1)) s).map (fun ended => ended.1.map (ActionResult.rename g)) ∧
      (x.after (kept.map (·.1)) s).Matches g (x.after lines t) := by
  induction lines generalizing s t f with
  | nil => exact ⟨f, fun _ _ => rfl, rfl, h⟩
  | cons line rest ih =>
    obtain ⟨turn, text⟩ := line
    cases hcall : x.call? turn text t with
    | none =>
      obtain ⟨made, -, hmade⟩ := (execute_of_no_call hcall).2
      obtain ⟨g, hg, hgrown⟩ := h.grow hs (made.map .command)
      obtain ⟨g', hg', hresults, hend⟩ := ih (hmade ▸ hgrown) hs
      simp only [called, hcall, Option.isSome_none, Bool.false_eq_true, if_false]
      exact ⟨g', fun id hid => (hg' id hid).trans (hg id hid), hresults, hend⟩
    | some c =>
      have hturn := x.execute_matched turn text h
      have hclosed : (x.execute turn text s).2.Closed :=
        (Exec.closed_turn x.registry).execute turn text hs
      have hlength := length_execute x turn text s
      have hbelow : ∀ r, (x.execute turn text s).1 = .ok r →
          Below (x.execute turn text s).2.objects.length r.ids := fun r => below_execute hs
      simp only [called, hcall, Option.isSome_some, if_true, List.map_cons, trace, after_cons]
      generalize x.execute turn text s = p at hturn hclosed hlength hbelow
      generalize x.execute turn text t = q at hturn
      cases hturn with
      | error h' =>
        obtain ⟨g, hg, hresults, hend⟩ := ih h' hclosed
        refine ⟨g, fun id hid => hg id (Nat.lt_of_lt_of_le hid hlength), ?_, hend⟩
        rw [hresults]
        rfl
      | @ok r s' t' h' =>
        obtain ⟨g, hg, hresults, hend⟩ := ih h' hclosed
        refine ⟨g, fun id hid => hg id (Nat.lt_of_lt_of_le hid hlength), ?_, hend⟩
        have hr : r.rename f = r.rename g := ActionResult.rename_congr fun id hid =>
          (hg id (hbelow r rfl id hid)).symm
        rw [hresults, hr]
        rfl

/-- From a closed state, leave out of a sequence of turns all that fail before they have a call. The
others end as they do among all of them, with the same results and errors, and the state after them
is the same, up to one injective renaming of the places of objects: what was completed, what is
recommended and the records are equal, the bindings are equal up to the renaming, and every object
is at the renamed place. Objects of the first state are not renamed. -/
theorem trace_called (x : Executor) {s : State} (hs : s.Closed) (lines : List (Nat × String)) :
    let kept := x.called lines s
    ∃ f, (∀ id, id < s.objects.length → f id = id) ∧
      kept.map (·.2) =
        (x.trace (kept.map (·.1)) s).map (fun ended => ended.1.map (ActionResult.rename f)) ∧
      (x.after (kept.map (·.1)) s).Renamed f (x.after lines s) := by
  obtain ⟨f, hf, hresults, hend⟩ := called_matched (State.matches_self hs.context) hs lines
  exact ⟨f, hf, hresults, hend.toRenamed⟩

/-- A turn that makes a command and then fails on a name is left out, and moves the object of the
turn after it. -/
theorem trace_called_alarms :
    let s := State.new .empty
    let lines := [(0, "create_alarm()"), (1, "[create_alarm(), x9]"),
      (2, "create_alarm(time=\"8:30\")")]
    let kept := Conversation.alarms.called lines s
    (s.Closed ∧ kept.map (·.1.1) = [0, 2] ∧
        (Conversation.alarms.after lines s).find? "x2" = some (.object 2)) ∧
      ∃ f, (∀ id, id < s.objects.length → f id = id) ∧
        kept.map (·.2) = (Conversation.alarms.trace (kept.map (·.1)) s).map
          (fun ended => ended.1.map (ActionResult.rename f)) ∧
        (Conversation.alarms.after (kept.map (·.1)) s).Renamed f
          (Conversation.alarms.after lines s) := by
  intro s lines kept
  have hclosed : s.Closed := State.closed_new fun kind e he => by
    simp [AppContext.empty, AppContext.records, AppContext.recordsIn] at he
  have hkept : kept.map (·.1.1) = [0, 2] := by decide +kernel
  have hmoved : (Conversation.alarms.after lines s).find? "x2" = some (.object 2) := by
    decide +kernel
  exact ⟨⟨hclosed, hkept, hmoved⟩, trace_called Conversation.alarms hclosed lines⟩

end Executor

end TaskDialogue
