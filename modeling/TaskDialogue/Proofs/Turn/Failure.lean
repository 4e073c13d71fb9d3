import TaskDialogue.Proofs.Turn.Frame
import TaskDialogue.Proofs.Turn.Settled

/-!
# What a turn that fails leaves behind

A turn fails in one of three ways. Its text is no single statement, and then nothing has happened.
Or its statement means nothing in the state: then new commands and the first of several writes may
be left behind, but no variable is bound and nothing is recommended or completed. Or it runs a
query for which there are no records, which is bound by then, and nothing is recommended any more.
-/
namespace TaskDialogue

/-- Whether an error is about what a statement means, and neither about its text nor about the
effect of a task. -/
def ExecError.Semantic : ExecError → Prop
  | parse _ | perform _ _ => False
  | _ => True

theorem ExecError.Semantic.kind {e : ExecError} (h : e.Semantic) :
    e.kind ≠ .parse ∧ e.kind ≠ .perform := by
  cases e <;> first | exact h.elim | exact ⟨nofun, nofun⟩

/-- A step ends well, or it fails for what the statement means. -/
def Complains {α : Type} (r : Except ExecError α) : Prop := ∀ e, r = .error e → e.Semantic

namespace Complains

variable {α β : Type}

theorem ok (a : α) : Complains (.ok a) := nofun

theorem error {e : ExecError} (h : e.Semantic) : Complains (.error e : Except ExecError α) := by
  rintro _ ⟨rfl⟩
  exact h

theorem bind {r : Except ExecError α} {f : α → Except ExecError β} (hr : Complains r)
    (hf : ∀ a, r = .ok a → Complains (f a)) : Complains (r >>= f) := by
  cases r with
  | error e => exact .error (hr e rfl)
  | ok a => exact hf a rfl

theorem map {r : Except ExecError α} {f : α → β} (hr : Complains r) : Complains (r.map f) := by
  cases r with
  | error e => exact .error (hr e rfl)
  | ok a => exact .ok (f a)

end Complains

/-! ### Objects and the state -/

namespace Command

theorem complains_entityIndex (c : Command) (var : String) (index : Option Int64) :
    Complains (c.entityIndex var index) := by
  unfold entityIndex
  split
  · exact .ok none
  · exact .ok (some 0)
  · exact .error trivial
  · split
    · exact .ok _
    · exact .error trivial

theorem complains_slotPosition (c : Command) (attr : String) : Complains (c.slotPosition attr) := by
  unfold slotPosition
  split
  · exact .ok _
  · exact .error trivial

theorem complains_get (c : Command) (attr : String) : Complains (c.get attr) := by
  unfold get
  split
  · exact .ok _
  · exact (c.complains_slotPosition attr).bind fun _ _ => .ok _

theorem complains_set (c : Command) (attr : String) (v : Value) : Complains (c.set attr v) := by
  unfold set
  split
  · split
    · exact .ok _
    · exact .error trivial
  · refine (c.complains_slotPosition attr).bind fun position _ => ?_
    dsimp only
    split
    · exact .ok _
    · exact .error trivial

end Command

namespace TaskObject

theorem complains_get (attr : String) (o : TaskObject) : Complains (o.get attr) := by
  cases o with
  | command c => exact c.complains_get attr
  | entity e =>
    simp only [get]
    split
    · exact .ok _
    · exact .error trivial

theorem complains_set (attr : String) (v : Value) (o : TaskObject) :
    Complains (o.set attr v) := by
  cases o with
  | command c => exact (c.complains_set attr v).map
  | entity e =>
    simp only [set]
    split
    · exact .ok _
    · exact .error trivial

theorem complains_append (attr : String) (v : Value) (o : TaskObject) :
    Complains (o.append attr v) := by
  refine (o.complains_get attr).bind fun value _ => ?_
  split
  · exact o.complains_set attr _
  · exact .error trivial

/-- Only a query cannot be performed, and that only when there are no records of its entity. -/
theorem perform_error {o : TaskObject} {context : AppContext} {cause : PerformError}
    (h : o.perform context = .error cause) :
    ∃ c entity, o = command c ∧ c.schema.kind = .query entity ∧ context.records entity = [] ∧
      cause = .noRecords entity := by
  cases o with
  | entity e => simp [perform] at h
  | command c =>
    simp only [perform, Command.perform] at h
    cases hkind : c.schema.kind with
    | query entity =>
      simp only [hkind] at h
      split at h
      · next hfound =>
        refine ⟨c, entity, rfl, hkind, by simpa using hfound, ?_⟩
        simpa [Except.map] using h.symm
      · simp [Except.map] at h
    | intent | say | hint | perform | len | next => simp [hkind, Except.map] at h

end TaskObject

namespace State

theorem complains_lookup (s : State) (var : String) : Complains (s.lookup var) := by
  unfold lookup
  split
  · exact .ok _
  · exact .error trivial

theorem complains_resolve (s : State) (var : String) (index : Option Int64) :
    Complains (s.resolve var index) := by
  refine (s.complains_lookup var).bind fun value _ => ?_
  split
  · split
    · next c _ =>
      split
      · refine (c.complains_entityIndex var index).bind fun found _ => ?_
        split
        · exact .ok _
        · exact .error trivial
      · split
        · exact .error trivial
        · exact .ok _
    · split
      · exact .error trivial
      · exact .ok _
  · exact .error trivial

end State

namespace Exec

/-! ### Evaluation -/

theorem complains_subscriptIndex (e : Expr) : Complains (subscriptIndex e) := by
  unfold subscriptIndex
  split
  · exact .ok _
  · exact .ok _
  · exact .error trivial

theorem complains_evalField (s : State) (base : Expr) (attr : String) :
    Complains (evalField s base attr) := by
  unfold evalField
  split
  · next var _ =>
    refine (s.complains_lookup var).bind fun value _ => ?_
    split
    · exact TaskObject.complains_get attr _
    · exact .error trivial
  · next var _ index _ =>
    refine (complains_subscriptIndex index).bind fun i _ => ?_
    refine (s.complains_lookup var).bind fun value _ => ?_
    split
    · split
      · exact .error trivial
      · exact TaskObject.complains_get attr _
      · exact .error trivial
    · exact (s.complains_resolve var i).bind fun _ _ => TaskObject.complains_get attr _
  · exact .error trivial

theorem complains_build (registry : Registry) (name : String) :
    Complains (registry.build name) := by
  unfold Registry.build
  split
  · exact .ok _
  · exact .error trivial

mutual

/-- Evaluation fails only for what its expressions mean. -/
theorem complains_eval (registry : Registry) :
    ∀ (e : Expr) (s : State), Complains (eval registry e s).1
  | .none _, _ | .bool _ _, _ | .int _ _, _ | .float _ _, _ | .str _ _, _ => .ok _
  | .list es _, s => by
    have hes := complains_evalAll registry es s
    simp only [eval]
    split
    · exact .ok _
    · split
      · exact .ok _
      · next heq => exact .error (hes _ (by rw [heq]))
  | .name id _, s => s.complains_lookup id
  | .field base attr _, s => complains_evalField s base attr
  | .subscript _ _ _, _ => .error trivial
  | .call func args keywords _, s => by
    simp only [eval]
    split
    · exact .error trivial
    · next name _ =>
      split
      · next heq => exact .error (complains_build registry name _ heq)
      · next command _ =>
        split
        · exact .error trivial
        · have hargs := complains_fillPositional registry args command.schema.positional command s
          split
          · next heq => exact .error (hargs _ (by rw [heq]))
          · next filled t _ =>
            have hkeywords := complains_fillKeywords registry keywords filled t
            split
            · next heq => exact .error (hkeywords _ (by rw [heq]))
            · exact .ok _

theorem complains_evalAll (registry : Registry) :
    ∀ (es : List Expr) (s : State), Complains (evalAll registry es s).1
  | [], _ => .ok _
  | e :: es, s => by
    have he := complains_eval registry e s
    simp only [evalAll]
    split
    · next heq => exact .error (he _ (by rw [heq]))
    · next t _ =>
      have hes := complains_evalAll registry es t
      split
      · next heq => exact .error (hes _ (by rw [heq]))
      · exact .ok _

theorem complains_fillPositional (registry : Registry) :
    ∀ (es : List Expr) (slots : List String) (c : Command) (s : State),
      Complains (fillPositional registry es slots c s).1
  | [], _, _, _ => .ok _
  | _ :: _, [], _, _ => .ok _
  | e :: es, slot :: slots, c, s => by
    have he := complains_eval registry e s
    simp only [fillPositional]
    split
    · next heq => exact .error (he _ (by rw [heq]))
    · next value t _ =>
      split
      · next heq => exact .error (c.complains_set slot value _ heq)
      · next filled _ => exact complains_fillPositional registry es slots filled t

theorem complains_fillKeywords (registry : Registry) :
    ∀ (ks : List Keyword) (c : Command) (s : State),
      Complains (fillKeywords registry ks c s).1
  | [], _, _ => .ok _
  | ⟨slot, e, _⟩ :: ks, c, s => by
    have he := complains_eval registry e s
    simp only [fillKeywords]
    split
    · next heq => exact .error (he _ (by rw [heq]))
    · next value t _ =>
      split
      · next heq => exact .error (c.complains_set slot value _ heq)
      · next filled _ => exact complains_fillKeywords registry ks filled t

end

/-! ### Classification -/

theorem complains_callKind (s : State) (v : Value) : Complains (callKind s v) := by
  unfold callKind
  split
  · split
    · dsimp only
      split
      · exact .ok _
      · refine Complains.map ?_
        unfold resultCount
        split
        · exact .ok _
        · exact .ok _
        · exact .error trivial
      · refine Complains.map ?_
        unfold firstResult
        split
        · exact .ok _
        · exact .error trivial
      · exact .ok _
    · exact .ok _
  · exact .ok _

theorem complains_appendTarget (target : Expr) : Complains (appendTarget target) := by
  unfold appendTarget
  split
  · exact .ok _
  · exact .error trivial

theorem complains_assignmentTarget (target : Expr) : Complains (assignmentTarget target) := by
  unfold assignmentTarget
  split
  · exact .ok _
  · next index _ _ _ => exact (complains_subscriptIndex index).bind fun _ _ => .ok _
  · exact .error trivial

variable {registry : Registry} {policy : MultiTargetPolicy} {turn : Nat} {s t : State}
  {e : ExecError}

theorem complains_assignmentGroups (registry : Registry) (targets es : List Expr)
    (groups : List (String × List AttributeUpdate)) (s : State) :
    Complains (assignmentGroups registry targets es groups s).1 := by
  induction targets generalizing es groups s with
  | nil => exact .ok _
  | cons target targets ih =>
    cases es with
    | nil => exact .ok _
    | cons e es =>
      simp only [assignmentGroups]
      split
      · next heq => exact .error (complains_assignmentTarget target _ heq)
      · have he := complains_eval registry e s
        split
        · next heq => exact .error (he _ (by rw [heq]))
        · next value t _ => exact ih es _ t

/-- There are no groups only without a target or without a value, and then nothing was evaluated. -/
theorem assignmentGroups_nil {targets es : List Expr}
    {groups : List (String × List AttributeUpdate)}
    (h : assignmentGroups registry targets es groups s = (.ok [], t)) :
    groups = [] ∧ t = s ∧ (targets = [] ∨ es = []) := by
  induction targets generalizing es groups s with
  | nil =>
    simp only [assignmentGroups, Prod.mk.injEq, Except.ok.injEq] at h
    exact ⟨h.1, h.2.symm, .inl rfl⟩
  | cons target targets ih =>
    cases es with
    | nil =>
      simp only [assignmentGroups, Prod.mk.injEq, Except.ok.injEq] at h
      exact ⟨h.1, h.2.symm, .inr rfl⟩
    | cons e es =>
      simp only [assignmentGroups] at h
      split at h
      · simp at h
      · next var index attr _ =>
        split at h
        · simp at h
        · next value u _ =>
          have hgroups := (ih h).1
          cases groups with
          | nil => simp [addUpdate] at hgroups
          | cons g rest =>
            simp only [addUpdate] at hgroups
            split at hgroups <;> cases hgroups

/-- Of some groups one has the most writes. -/
theorem selectGroup_error {groups : List (String × List AttributeUpdate)}
    (h : selectGroup policy turn groups = .error e) :
    e.Semantic ∨ (e.kind = .parse ∧ groups = []) := by
  unfold selectGroup at h
  split at h
  · simp only [Except.error.injEq] at h
    exact .inl (h ▸ trivial)
  · dsimp only at h
    split at h
    · simp at h
    · next hfind =>
      simp only [Except.error.injEq] at h
      refine .inr ⟨h ▸ rfl, ?_⟩
      generalize hmost : (groups.map (·.2.length)).foldl max 0 = most at hfind
      have hle : ∀ g ∈ groups, g.2.length ≤ most := fun g hg =>
        (foldl_max_le.mp (Nat.le_of_eq hmost)).2 _ (List.mem_map_of_mem hg)
      have hlt : ∀ g ∈ groups, g.2.length < most := by
        intro g hg
        have hne := List.find?_eq_none.mp hfind g hg
        rw [decide_eq_true_iff] at hne
        exact Nat.lt_of_le_of_ne (hle g hg) hne
      cases groups with
      | nil => rfl
      | cons g rest =>
        have hsmaller : ((g :: rest).map (·.2.length)).foldl max 0 ≤ most - 1 := by
          refine foldl_max_le.mpr ⟨Nat.zero_le _, fun m hm => ?_⟩
          obtain ⟨other, hother, rfl⟩ := List.mem_map.mp hm
          have hless := hlt other hother
          omega
        have hfirst := hlt g List.mem_cons_self
        omega

theorem classifyAssignment_error {targets es : List Expr}
    (h : classifyAssignment registry policy turn targets es s = (.error e, t)) :
    e.Semantic ∨ (e.kind = .parse ∧ t = s ∧ (targets = [] ∨ es = [])) := by
  have hcomplains := complains_assignmentGroups registry targets es [] s
  unfold classifyAssignment at h
  split at h
  · next heq =>
    obtain ⟨⟨rfl⟩, -⟩ := Prod.mk.inj h
    exact .inl (hcomplains _ (by rw [heq]))
  · next groups u heq =>
    obtain ⟨hselect, rfl⟩ := Prod.mk.inj h
    obtain hsemantic | ⟨hparse, rfl⟩ := selectGroup_error hselect
    · exact .inl hsemantic
    · exact .inr ⟨hparse, (assignmentGroups_nil heq).2⟩

/-- A statement is no call because of what it means, or because it assigns nothing. -/
theorem classifyStmt_error {stmt : Stmt}
    (h : classifyStmt registry policy turn stmt s = (.error e, t)) :
    e.Semantic ∨ (e.kind = .parse ∧ t = s ∧
      ∃ targets values span, stmt = .tupleAssign targets values span ∧
        (targets = [] ∨ values = [])) := by
  have heval : ∀ (value : Expr) {u : State}, eval registry value s = (.error e, u) →
      e.Semantic := fun value u heq => complains_eval registry value s e (by rw [heq])
  unfold classifyStmt at h
  split at h
  · next target value span =>
    split at h
    · next heq =>
      obtain ⟨⟨rfl⟩, -⟩ := Prod.mk.inj h
      exact .inl (complains_appendTarget target _ heq)
    · split at h
      · next heq =>
        obtain ⟨⟨rfl⟩, -⟩ := Prod.mk.inj h
        exact .inl (heval _ heq)
      · simp at h
  · split at h
    · next heq =>
      obtain ⟨⟨rfl⟩, -⟩ := Prod.mk.inj h
      exact .inl (heval _ heq)
    · next value u _ =>
      obtain ⟨hkind, -⟩ := Prod.mk.inj h
      exact .inl ((complains_callKind u value).map _ hkind)
  · split at h
    · next heq =>
      obtain ⟨⟨rfl⟩, -⟩ := Prod.mk.inj h
      exact .inl (heval _ heq)
    · simp at h
  · split at h
    · next heq =>
      obtain ⟨⟨rfl⟩, -⟩ := Prod.mk.inj h
      exact .inl (heval _ heq)
    · simp at h
  · obtain hsemantic | ⟨-, -, hnone | hnone⟩ := classifyAssignment_error h
    · exact .inl hsemantic
    · cases hnone
    · cases hnone
  · next targets values span =>
    obtain hsemantic | ⟨hparse, hsame, hnone⟩ := classifyAssignment_error h
    · exact .inl hsemantic
    · exact .inr ⟨hparse, hsame, targets, values, span, rfl, hnone⟩

/-- A program that has no call is no single statement, and then nothing has happened, or its
statement is wrong about what it means. -/
theorem classify_error {p : Program} (h : classify registry policy turn p s = (.error e, t)) :
    e.Semantic ∨ (e.kind = .parse ∧ t = s) := by
  unfold classify at h
  split at h
  · obtain ⟨⟨rfl⟩, rfl⟩ := Prod.mk.inj h
    exact .inr ⟨rfl, rfl⟩
  · exact (classifyStmt_error h).imp_right fun ⟨hparse, hsame, _⟩ => ⟨hparse, hsame⟩
  · obtain ⟨⟨rfl⟩, rfl⟩ := Prod.mk.inj h
    exact .inr ⟨rfl, rfl⟩

/-! ### The protocol -/

variable {var : String} {kind : CallKind} {target : TaskRef} {index : Nat} {u : State}

/-- The writes of an assignment fail only for what they mean. -/
theorem complains_applyUpdates (var : String) (updates : List AttributeUpdate)
    (first : Option TaskRef) (s : State) : Complains (applyUpdates var updates first s).1 := by
  induction updates generalizing first s with
  | nil => exact .ok _
  | cons update updates ih =>
    simp only [applyUpdates]
    split
    · next heq => exact .error (s.complains_resolve var update.index _ heq)
    · next place _ =>
      split
      · next heq => exact .error (TaskObject.complains_set _ _ _ _ heq)
      · exact ih _ _

/-- What a call resolves through its variable is a result of a query, or no query. -/
theorem isQuery_of_resolve {i : Option Int64} {c : Command} (h : s.resolve var i = .ok target)
    (hc : s.task target = .command c) : c.isQuery = false := by
  obtain ⟨id, entity⟩ := target
  obtain ⟨position, rfl, hlt⟩ | ⟨rfl, hquery⟩ := State.resolve_part h
  · obtain ⟨e, he⟩ := TaskObject.part_entity hlt
    rw [State.task, he] at hc
    cases hc
  · rw [State.task, TaskObject.part_none] at hc
    exact hquery c hc

/-- A call runs a command, or it advances what its variable means after the writes too. -/
theorem resolve_protocolTask (h : protocolTask? var kind s = some (target, u)) :
    (∃ id assigned, kind = .command id assigned ∧ target = ⟨id, none⟩ ∧
        u = if assigned then s else s.bind var (.object id)) ∨
      ∃ i, u.resolve var i = .ok target := by
  obtain hcommand | ⟨updates, rfl, heq⟩ | ⟨attr, value, changed, rfl, hplace, happend, rfl⟩ :=
    protocolTask?_eq_some h
  · exact .inl hcommand
  · obtain ⟨-, hfirst⟩ | ⟨update, -, hresolve⟩ := applyUpdates_target heq
    · simp at hfirst
    · have hkept : (applyUpdates var updates none s).2.resolve var update.index = .ok target := by
        refine applyUpdates_preserves (P := fun w => w.resolve var update.index = .ok target)
          ?_ hresolve
        intro w place changed other _ _ hset hw
        rw [State.resolve_setTask (TaskObject.set_written hset), hw]
      rw [heq] at hkept
      exact .inr ⟨update.index, hkept⟩
  · refine .inr ⟨none, ?_⟩
    rw [State.resolve_setTask (TaskObject.append_written happend), hplace]

/-- A call that runs a query for which there are no records. -/
structure FindsNothing (var : String) (id : Nat) (assigned : Bool) (s : State) (e : ExecError)
    (t : State) : Prop where
  query : ∃ c entity, s.object id = .command c ∧ c.schema.kind = .query entity ∧
    s.context.records entity = [] ∧ e = .perform var (.noRecords entity)
  state : t = { (if assigned then s else s.bind var (.object id)) with recommendation := none }

/-- A call fails for what its writes mean, and then objects alone have been written to, or it runs
a query for which there are no records. -/
theorem runKind_error (h : runKind var index kind s = (.error e, t)) :
    (e.Semantic ∧ t = { s with objects := t.objects }) ∨
      ∃ id assigned, kind = .command id assigned ∧ FindsNothing var id assigned s e t := by
  cases hprotocol : protocolTask? var kind s with
  | some r =>
    obtain ⟨target, u⟩ := r
    rw [runKind_of_protocolTask index hprotocol] at h
    obtain ⟨_, -, hr⟩ | ⟨-, ⟨cause, hperform, hr⟩ | ⟨_, _, -, hr⟩⟩ :=
      performOrRecommend_cases var index target u
    · simp [hr] at h
    · rw [hr] at h
      obtain ⟨⟨rfl⟩, rfl⟩ := Prod.mk.inj h
      obtain ⟨c, entity, hc, hkind, hnone, rfl⟩ := TaskObject.perform_error hperform
      obtain ⟨id, assigned, rfl, rfl, rfl⟩ | ⟨i, hresolve⟩ := resolve_protocolTask hprotocol
      · rw [State.task, TaskObject.part_none] at hc
        have hobject : s.object id = .command c := by cases assigned <;> exact hc
        have hrecords : s.context.records entity = [] := by cases assigned <;> exact hnone
        exact .inr ⟨id, assigned, rfl, ⟨c, entity, hobject, hkind, hrecords, rfl⟩, rfl⟩
      · have hquery := isQuery_of_resolve hresolve hc
        simp [Command.isQuery, hkind, CommandKind.isQuery] at hquery
    · simp [hr] at h
  | none =>
    refine .inl ?_
    cases kind with
    | command id assigned => simp [protocolTask?] at hprotocol
    | perform binding =>
      obtain _ | ⟨_ | _⟩ := binding <;> simp [runKind] at h
    | next entity => simp [runKind] at h
    | value value => simp [runKind] at h
    | assignment updates =>
      have hcomplains := complains_applyUpdates var updates none s
      have hwrites := (applyUpdates_writes var updates none s).1.rest
      simp only [protocolTask?] at hprotocol
      simp only [runKind] at h
      split at h
      · next heq =>
        obtain ⟨⟨rfl⟩, rfl⟩ := Prod.mk.inj h
        rw [heq] at hcomplains hwrites
        exact ⟨hcomplains _ rfl, hwrites⟩
      · simp at h
      · next heq => simp [heq] at hprotocol
    | append attr value =>
      simp only [protocolTask?] at hprotocol
      simp only [runKind] at h
      split at h
      · next heq =>
        obtain ⟨⟨rfl⟩, rfl⟩ := Prod.mk.inj h
        exact ⟨s.complains_resolve var none _ heq, rfl⟩
      · next hplace =>
        split at h
        · next heq =>
          obtain ⟨⟨rfl⟩, rfl⟩ := Prod.mk.inj h
          exact ⟨TaskObject.complains_append _ _ _ _ heq, rfl⟩
        · next happend => simp [hplace, happend] at hprotocol

end Exec

/-! ### Turns -/

/-- The variable of a turn is bound to the query that was made last, and no other binding is
different. -/
structure State.HoldsQuery (turn : Nat) (s t : State) : Prop where
  other : ∀ v, v ≠ varName turn → t.find? v = s.find? v
  query : ∃ id c, s.objects.length ≤ id ∧ t.objects.length = id + 1 ∧
    t.find? (varName turn) = some (.object id) ∧ t.object id = .command c ∧ c.isQuery = true

namespace Executor

/-- The ways in which a turn fails: its text is no statement, its statement means nothing, or its
query finds nothing. -/
inductive Fails (x : Executor) (turn : Nat) (text : String) (s : State) (e : ExecError)
    (t : State) : Prop where
  | text (kind : e.kind = .parse) (same : t = s)
  | meaning (semantic : e.Semantic) (rest : t = { s with objects := t.objects })
  | query {call : Call} {u : State} {id : Nat} {assigned : Bool}
    (called : x.call? turn text s = some (call, u)) (runs : call.kind = .command id assigned)
    (finds : Exec.FindsNothing call.var id assigned u e t)

variable {x : Executor} {turn : Nat} {text : String} {s t : State} {e : ExecError}

theorem fails_of_error (h : x.execute turn text s = (.error e, t)) : x.Fails turn text s e t := by
  cases hcall : x.call? turn text s with
  | none =>
    have hrest := (execute_of_no_call hcall).2.rest
    rw [h] at hrest
    unfold execute at h
    split at h
    · obtain ⟨⟨rfl⟩, rfl⟩ := Prod.mk.inj h
      exact .text rfl rfl
    · next p followed hprepare =>
      simp only [call?, hprepare] at hcall
      unfold executeProgram at h
      split at h
      · next hclassify =>
        obtain ⟨⟨rfl⟩, rfl⟩ := Prod.mk.inj h
        obtain hsemantic | ⟨hparse, hsame⟩ := Exec.classify_error hclassify
        · exact .meaning hsemantic hrest
        · exact .text hparse hsame
      · next hclassify => simp [hclassify] at hcall
  | some r =>
    obtain ⟨call, u⟩ := r
    obtain ⟨-, hbindings, hcompleted, -⟩ := call?_cases hcall
    have hrecommendation := (call?_objects hcall).1
    have hcontext := context_execute x turn text s
    rw [h] at hcontext
    rw [execute_of_call hcall] at h
    obtain ⟨hsemantic, hobjects⟩ | ⟨id, assigned, hkind, hfinds⟩ := Exec.runKind_error h
    · refine .meaning hsemantic ?_
      rw [hobjects] at hcontext ⊢
      rw [← hbindings, ← hcompleted, ← hrecommendation, ← hcontext]
    · exact .query hcall hkind hfinds

/-- What a turn leaves behind that fails. Records and completed variables are what they were, and
no object is gone. Where its text is no statement nothing has happened at all. No variable is bound
and the recommendation stays, unless a query found nothing: then nothing is recommended, and the
turn has bound its variable to this query, or it was a name that is bound to it already. -/
theorem execute_error (h : x.execute turn text s = (.error e, t)) :
    (t.context = s.context ∧ t.completed = s.completed ∧
        s.objects.length ≤ t.objects.length) ∧
      (e.kind = .parse → t = s) ∧
      (e.kind ≠ .perform → t.bindings = s.bindings ∧ t.recommendation = s.recommendation) ∧
      (e.kind = .perform → t.recommendation = none ∧
        (((∃ v, x.subject? text = some v) ∧ t.bindings = s.bindings) ∨
          (x.subject? text = none ∧ s.HoldsQuery turn t))) := by
  have hcontext := context_execute x turn text s
  have hlength := length_execute x turn text s
  rw [h] at hcontext hlength
  cases fails_of_error h with
  | text kind same =>
    subst same
    refine ⟨⟨rfl, rfl, Nat.le_refl _⟩, fun _ => rfl, fun _ => ⟨rfl, rfl⟩, fun hperform => ?_⟩
    rw [kind] at hperform
    cases hperform
  | meaning semantic rest =>
    obtain ⟨hparse, hperform⟩ := semantic.kind
    have hcompleted : t.completed = s.completed := by rw [rest]
    have hbindings : t.bindings = s.bindings := by rw [rest]
    have hrecommendation : t.recommendation = s.recommendation := by rw [rest]
    exact ⟨⟨hcontext, hcompleted, hlength⟩, fun hkind => absurd hkind hparse,
      fun _ => ⟨hbindings, hrecommendation⟩, fun hkind => absurd hkind hperform⟩
  | @query call u id assigned called runs finds =>
    obtain ⟨-, hbindings, hcompleted, -⟩ := call?_cases called
    obtain ⟨w, -, -, haddresses⟩ := call?_addresses called
    obtain ⟨c, entity, hobject, hkind, -, rfl⟩ := finds.query
    have hstate := finds.state
    have hdone : t.completed = s.completed := by
      rw [hstate, ← hcompleted]
      cases assigned <;> rfl
    refine ⟨⟨hcontext, hdone, hlength⟩, nofun, fun hother => absurd rfl hother, fun _ => ?_⟩
    refine ⟨by rw [hstate], ?_⟩
    generalize x.subject? text = subject at haddresses ⊢
    cases haddresses with
    | subject old =>
      refine .inl ⟨⟨_, rfl⟩, ?_⟩
      cases assigned with
      | true => rw [hstate, ← hbindings]; rfl
      | false => exact absurd runs (old id)
    | turn var made =>
      rw [runs] at made
      obtain ⟨rfl, hid, hlast⟩ := made
      rw [var] at hstate
      have hfind : ∀ v, t.find? v =
          if varName turn = v then some (.object id) else s.find? v := by
        intro v
        rw [hstate, ← show u.find? v = s.find? v by rw [State.find?, hbindings]; rfl]
        exact State.find?_bind u (varName turn) v (.object id)
      refine .inr ⟨rfl, fun v hv => ?_, id, c, hid, ?_, ?_, ?_, ?_⟩
      · rw [hfind, if_neg (Ne.symm hv)]
      · rw [hstate]
        exact hlast
      · rw [hfind, if_pos rfl]
      · rw [hstate]
        exact hobject
      · rw [Command.isQuery, hkind]
        rfl

/-- A search where there are no records. -/
theorem execute_error_hotels :
    let x : Executor :=
      ⟨.ofSchemas [.query ⟨"Hotel", [("name", .str)]⟩], Sugar.defaults, .defaults⟩
    ∃ e t, x.execute 0 "find_hotel()" (.new .empty) = (.error e, t) ∧ e.kind = .perform ∧
      (State.new .empty).HoldsQuery 0 t := by
  intro x
  have hfails : (x.execute 0 "find_hotel()" (.new .empty)).1 =
      .error (.perform "x0" (.noRecords "Hotel")) := by
    decide +kernel
  have hsubject : x.subject? "find_hotel()" = none := by decide +kernel
  generalize hended : x.execute 0 "find_hotel()" (.new .empty) = ended at hfails ⊢
  obtain ⟨result, t⟩ := ended
  dsimp only at hfails
  subst hfails
  obtain ⟨-, ⟨⟨v, hv⟩, -⟩ | ⟨-, hholds⟩⟩ := (execute_error hended).2.2.2 rfl
  · simp [hsubject] at hv
  · exact ⟨_, t, rfl, rfl, hholds⟩

end Executor

end TaskDialogue
