import TaskDialogue.Proofs.Task.Asks
import TaskDialogue.Proofs.Turn.Effects

/-!
# Answering what a task asks for

A task is called up by its name, and then each turn answers what the turn before it recommended:
a slot is given a value, or the task is confirmed. Every answer takes away the first of the
requests and adds none, so a task is performed after as many answers as it had requests.
-/
namespace TaskDialogue

namespace Command

variable {c : Command} {a : RecommendedAction} {rest : List RecommendedAction}

/-- What is asked for first is a missing value, or the confirmation when no value is missing. -/
theorem asks_cons (h : c.asks = a :: rest) :
    (∃ name names, c.missing = name :: names ∧ a = .askValue name ∧
        rest = names.map .askValue ++ if c.unconfirmed then [.askConfirmation] else []) ∨
      (c.missing = [] ∧ c.schema.confirmationRequired = true ∧ a = .askConfirmation ∧
        rest = []) := by
  rw [asks] at h
  cases hmissing : c.missing with
  | cons name names =>
    rw [hmissing, List.map_cons, List.cons_append, List.cons.injEq] at h
    exact .inl ⟨name, names, rfl, h.1.symm, h.2.symm⟩
  | nil =>
    refine .inr ⟨rfl, ?_⟩
    rw [hmissing, List.map_nil, List.nil_append] at h
    split at h
    · next hunconfirmed =>
      rw [List.cons.injEq] at h
      rw [unconfirmed, Bool.and_eq_true] at hunconfirmed
      exact ⟨hunconfirmed.1, h.1.symm, h.2.symm⟩
    · cases h

/-- A value for the slot that is asked for. -/
theorem asks_set_slot {dialogue name : String} {slot : SlotSchema} {v : Value}
    (hnames : (c.schema.slots.map (·.name)).Nodup) (hname : name ≠ confirmedAttr)
    (h : c.asks = .requestValue dialogue name :: rest) (hslot : slot ∈ c.schema.slots) (heq : slot.name = name)
    (haccepts : slot.type.accepts v = true) (hv : v.isNone = false) :
    ∃ values, c.set name v = .ok { c with values } ∧ asks { c with values } = rest := by
  obtain ⟨first, names, hmissing, hfirst, rfl⟩ | ⟨-, -, hconfirmation, -⟩ := asks_cons h
  · obtain rfl : name = first := (RecommendedAction.requestValue.inj hfirst).2
    obtain ⟨values, hset, hrest⟩ := set_missing hnames hname hmissing hslot heq haccepts hv
    refine ⟨values, hset, ?_⟩
    rw [asks, hrest]
    rfl
  · cases hconfirmation

/-- The confirmation that is asked for. -/
theorem asks_set_confirmed {dialogue name : String}
    (h : c.asks = .requestConfirmation dialogue name :: rest) :
    asks { c with confirmed := true } = rest := by
  obtain ⟨_, _, -, hvalue, -⟩ | ⟨hmissing, -, -, rfl⟩ := asks_cons h
  · cases hvalue
  · have hnone : missing { c with confirmed := true } = [] := hmissing
    simp [asks, hnone, unconfirmed]

end Command

theorem Program.eq_of_single? {p : Program} {stmt : Stmt} (h : p.single? = some stmt) :
    p = ⟨[stmt]⟩ := by
  obtain ⟨body⟩ := p
  unfold Program.single? at h
  split at h
  · next heq => simp_all
  · cases h

/-! ### One turn -/

namespace State

/-- A variable is bound to a command of a schema, which asks for these actions. -/
def Asking (s : State) (v : String) (schema : CommandSchema) (actions : List RecommendedAction) :
    Prop :=
  ∃ id c, s.find? v = some (.object id) ∧ s.object id = .command c ∧ c.schema = schema ∧
    c.asks = actions

end State

/-- A turn has brought a task to ask for these actions: it recommends the first of them, or it has
performed the task if there are none. -/
structure Progress (v : String) (schema : CommandSchema) (actions : List RecommendedAction)
    (s : State) (r : ActionResult) (t : State) : Prop where
  asking : t.Asking v schema actions
  action : r.recommendedAction = actions.head?
  result : r.result = if actions = [] then some (.inform "Success") else none
  recommendation : t.recommendation = actions.head?.map (v, ·)
  completed : ∀ w, w ∈ t.completed ↔ w ∈ s.completed ∨ (actions = [] ∧ w = v)

/-- Progress may be counted from any earlier state in which the same was completed. -/
theorem Progress.of_completed {v : String} {schema : CommandSchema}
    {actions : List RecommendedAction} {s t u : State} {r : ActionResult}
    (h : Progress v schema actions u r t) (hsame : ∀ w, w ∈ u.completed ↔ w ∈ s.completed) :
    Progress v schema actions s r t :=
  ⟨h.asking, h.action, h.result, h.recommendation, fun w => by rw [h.completed, hsame]⟩

namespace Exec

variable {v : String} {id index : Nat} {c c' : Command} {s : State}

theorem performOrRecommend_asking (index : Nat) (hfind : s.find? v = some (.object id))
    (hobject : s.object id = .command c) (hkind : c.schema.kind = .intent) :
    ∃ r t, performOrRecommend v index ⟨id, none⟩ s = (.ok r, t) ∧
      Progress v c.schema c.asks s r t := by
  have htask : s.task ⟨id, none⟩ = .command c := by
    rw [State.task, TaskObject.part_none, hobject]
  have hrecommend : (s.task ⟨id, none⟩).recommend? = c.asks.head? := by
    rw [htask]
    exact c.recommend?_eq_head?
  have hperform : (s.task ⟨id, none⟩).perform s.context =
      .ok (some (.inform "Success"), .command c) := by
    simp [htask, TaskObject.perform, Command.perform, hkind, Except.map]
  obtain ⟨a, hasks, hrun⟩ | ⟨hasks, ⟨cause, hfails, -⟩ | ⟨output, changed, hdone, hrun⟩⟩ :=
    performOrRecommend_cases v index ⟨id, none⟩ s
  · rw [hrecommend] at hasks
    have hne : c.asks ≠ [] := by
      rintro hnil
      simp [hnil] at hasks
    refine ⟨_, _, hrun, ⟨⟨id, c, hfind, hobject, rfl, rfl⟩, ?_, ?_, ?_, fun w => ?_⟩⟩
    · simp [hasks, ActionResult.recommended]
    · simp [hne, ActionResult.recommended]
    · simp [hasks]
    · simp [hne]
  · simp [hperform] at hfails
  · rw [hrecommend, List.head?_eq_none_iff] at hasks
    rw [hperform, Except.ok.injEq, Prod.mk.injEq] at hdone
    obtain ⟨rfl, rfl⟩ := hdone
    refine ⟨_, _, hrun, ⟨⟨id, c, hfind, ?_, rfl, rfl⟩, ?_, ?_, ?_, fun w => ?_⟩⟩
    · have hsame : (s.setTask ⟨id, none⟩ (.command c)).object id = .command c := by
        rw [State.object_setTask, hobject]
        simp [TaskObject.withPart]
      exact hsame
    · simp [hasks, ActionResult.performed]
    · simp [hasks, ActionResult.performed]
    · rw [hasks]
      rfl
    · rw [State.mem_complete]
      simp [hasks, State.setTask]

/-- A bare name is a call that runs its command. -/
theorem classify_name (registry : Registry) (policy : MultiTargetPolicy) (turn : Nat)
    (nameSpan span : Span) (hfind : s.find? v = some (.object id))
    (hobject : s.object id = .command c) :
    classify registry policy turn ⟨[.expr (.name v nameSpan) span]⟩ s =
      (.ok (.on v turn (.command id true)), s) := by
  simp [classify, classifyStmt, eval, State.lookup, hfind, nameKind, hobject, TaskObject.command?]

/-- A write to a command that is no query. -/
theorem protocolTask?_write {attr : String} {value : Value}
    (hfind : s.find? v = some (.object id)) (hobject : s.object id = .command c)
    (hquery : c.isQuery = false) (hset : c.set attr value = .ok c') :
    protocolTask? v (.assignment [⟨attr, none, value⟩]) s =
      some (⟨id, none⟩, s.setTask ⟨id, none⟩ (.command c')) := by
  have hresolve : s.resolve v none = .ok ⟨id, none⟩ := by
    simp [State.resolve, State.lookup, hfind, hobject, hquery, Bind.bind, Except.bind]
  have hwrite : (s.task ⟨id, none⟩).set attr value = .ok (.command c') := by
    rw [State.task, TaskObject.part_none, hobject]
    simp [TaskObject.set, hset, Except.map]
  simp only [protocolTask?, applyUpdates, hresolve, hwrite]

/-- An assignment to one field is a call on its variable. -/
theorem classify_assign {registry : Registry} {e : Expr} {value : Value} {w : State}
    (policy : MultiTargetPolicy) (turn : Nat) (v attr : String) (nameSpan fieldSpan span : Span)
    (h : eval registry e s = (.ok value, w)) :
    classify registry policy turn ⟨[.assign (.field (.name v nameSpan) attr fieldSpan) e span]⟩ s =
      (.ok (.on v turn (.assignment [⟨attr, none, value⟩])), w) := by
  simp [classify, classifyStmt, classifyAssignment, assignmentGroups, assignmentTarget, h,
    addUpdate, selectGroup]

end Exec

/-- In the state that a call is applied to new commands were made, and the task of the outstanding
recommendation was told of it at most. A variable asks for what it asked for. -/
theorem State.Asking.of_makes {s t : State} {v : String} {schema : CommandSchema}
    {actions : List RecommendedAction} (h : s.Asking v schema actions)
    (hmakes : Exec.Makes Exec.Unperformed s t) (followed : Bool) :
    let u := if followed then t.followRecommendation else t
    u.Asking v schema actions ∧ u.find? v = s.find? v ∧ u.completed = s.completed := by
  obtain ⟨id, c, hfind, hobject, rfl, rfl⟩ := h
  have hmade := hmakes.object_of_lt (State.lt_of_object_command hobject)
  rw [hobject] at hmade
  have hfind' : t.find? v = s.find? v := by
    rw [hmakes.rest]
    rfl
  have hcompleted : t.completed = s.completed := by rw [hmakes.rest]
  cases followed with
  | false => exact ⟨⟨id, c, hfind'.trans hfind, hmade, rfl, rfl⟩, hfind', hcompleted⟩
  | true =>
    have hsame : t.followRecommendation.find? v = s.find? v := by
      rw [State.find?, State.bindings_followRecommendation]
      exact hfind'
    refine ⟨?_, hsame, (State.completed_followRecommendation t).trans hcompleted⟩
    obtain hobject' | ⟨_, action, -, -, hnotified⟩ := t.object_followRecommendation id
    · exact ⟨id, c, hsame.trans hfind, hobject'.trans hmade, rfl, rfl⟩
    · rw [hmade] at hnotified
      exact ⟨id, c.notify action.name, hsame.trans hfind, hnotified, rfl, rfl⟩

/-- The field and the value that are to be written to give what is asked for. -/
inductive RecommendedAction.Gives (slots : List SlotSchema) :
    RecommendedAction → String → Value → Prop where
  | value {slot : SlotSchema} {v : Value} (dialogue : String) (mem : slot ∈ slots)
    (accepts : slot.type.accepts v = true) (given : v.isNone = false) :
    Gives slots (.requestValue dialogue slot.name) slot.name v
  | confirmation (dialogue name : String) :
    Gives slots (.requestConfirmation dialogue name) confirmedAttr (.bool true)

namespace Executor

/-- The statement of a turn text, with or without a follow marker, as it is written. -/
def statement? (x : Executor) (text : String) : Option Stmt := do
  let (expression, _) ← splitFollowMarker? x.options.followMarker.toList text.toList
  let p ← (Program.parse (String.ofList expression)).toOption
  p.single?

/-- The turn is a variable. -/
def Refers (x : Executor) (v text : String) : Prop :=
  ∃ nameSpan span, x.statement? text = some (.expr (.name v nameSpan) span)

/-- The turn gives what is asked for: to the slot a value of its type, by an expression that has
this value in the state, or the confirmation. -/
def Answers (x : Executor) (v : String) (schema : CommandSchema) (s : State) (text : String) :
    RecommendedAction → Prop
  | .requestValue _ name => ∃ nameSpan fieldSpan span e value w,
    x.statement? text = some (.assign (.field (.name v nameSpan) name fieldSpan) e span) ∧
      Exec.eval x.registry e s = (.ok value, w) ∧ value.isNone = false ∧
        ∃ slot ∈ schema.slots, slot.name = name ∧ slot.type.accepts value = true
  | .requestConfirmation _ _ => ∃ nameSpan argSpan callSpan span,
    x.statement? text =
      some (.expr (.call (.name Sugar.confirm.id nameSpan) [.name v argSpan] [] callSpan) span)
  | .requestDisambiguation _ _ _ => False

/-- Turns that call up a variable, and each answer what the turn before recommended. With it
goes what was answered, and how the last turn ended. -/
inductive Dialogue (x : Executor) (v : String) (schema : CommandSchema) (s : State) :
    List RecommendedAction → Except ExecError ActionResult × State → Prop where
  | refer {text : String} (turn : Nat) (h : x.Refers v text) :
    Dialogue x v schema s [] (x.execute turn text s)
  | answer {answered : List RecommendedAction} {r : ActionResult} {t : State}
    {a : RecommendedAction} {text : String} (turn : Nat)
    (before : Dialogue x v schema s answered (.ok r, t)) (asked : r.recommendedAction = some a)
    (h : x.Answers v schema t text a) :
    Dialogue x v schema s (answered ++ [a]) (x.execute turn text t)

variable {x : Executor} {v text : String} {turn : Nat} {schema : CommandSchema} {s : State}
  {actions : List RecommendedAction} {a : RecommendedAction}

theorem prepare_of_statement {stmt : Stmt} (h : x.statement? text = some stmt) :
    ∃ followed, x.prepare text = .ok (x.rewriter.apply ⟨[stmt]⟩, followed) := by
  obtain ⟨⟨expression, followed⟩, hsplit, h⟩ := Option.bind_eq_some_iff.mp h
  obtain ⟨p, hparse, hsingle⟩ := Option.bind_eq_some_iff.mp h
  refine ⟨followed, ?_⟩
  have hp : p = ⟨[stmt]⟩ := Program.eq_of_single? hsingle
  cases hparsed : Program.parse (String.ofList expression) with
  | error e => simp [hparsed, Except.toOption] at hparse
  | ok q =>
    obtain rfl : q = p := by simpa [hparsed, Except.toOption] using hparse
    simp only [prepare, hsplit, hparsed, hp, Bind.bind, Except.bind, pure, Except.pure]

/-- To call up a task changes nothing about what it asks for. -/
theorem execute_refers (hrewriter : x.rewriter = .ofSugars Sugar.defaults)
    (hkind : schema.kind = .intent) (h : x.Refers v text) (hs : s.Asking v schema actions) :
    ∃ r t, x.execute turn text s = (.ok r, t) ∧ Progress v schema actions s r t := by
  obtain ⟨nameSpan, span, hreads⟩ := h
  obtain ⟨followed, hprepare⟩ := prepare_of_statement hreads
  have hsugar : x.rewriter.apply ⟨[.expr (.name v nameSpan) span]⟩ =
      ⟨[.expr (.name v nameSpan) span]⟩ := by
    rw [hrewriter]
    rfl
  rw [hsugar] at hprepare
  obtain ⟨⟨id, c, hfind, hobject, rfl, rfl⟩, hsame, hcompleted⟩ :=
    hs.of_makes (.refl _ s) followed
  obtain ⟨place, d, hplace, hd, -, -⟩ := hs
  obtain rfl : id = place := by simpa [hsame, hplace] using hfind.symm
  have hclassify := Exec.classify_name x.registry x.options.multiTargetPolicy turn nameSpan span hplace hd
  obtain ⟨r, t, hrun, hprogress⟩ :=
    Exec.performOrRecommend_asking ((varIndex? v).getD turn) hfind hobject hkind
  refine ⟨r, t, ?_, hprogress.of_completed fun w => iff_of_eq (congrArg (w ∈ ·) hcompleted)⟩
  simp only [execute, hprepare, executeProgram, classify, hclassify, Exec.run]
  exact hrun

/-- A write to a task that leaves it with these requests. -/
theorem execute_assigns {rest : List RecommendedAction} {attr : String} {e : Expr} {value : Value}
    {w : State} {nameSpan fieldSpan span : Span} {followed : Bool}
    (hprepare : x.prepare text =
      .ok (⟨[.assign (.field (.name v nameSpan) attr fieldSpan) e span]⟩, followed))
    (heval : Exec.eval x.registry e s = (.ok value, w)) (hkind : schema.kind = .intent)
    (hs : s.Asking v schema actions)
    (hset : ∀ c : Command, c.schema = schema → c.asks = actions →
      ∃ c', c.set attr value = .ok c' ∧ c'.schema = schema ∧ c'.asks = rest) :
    ∃ r t, x.execute turn text s = (.ok r, t) ∧ Progress v schema rest s r t := by
  have hclassify := Exec.classify_assign x.options.multiTargetPolicy turn v attr nameSpan fieldSpan
    span heval
  have hmakes := Exec.classify_makes x.registry x.options.multiTargetPolicy turn
    ⟨[.assign (.field (.name v nameSpan) attr fieldSpan) e span]⟩ s
  replace hmakes : Exec.Makes Exec.Unperformed s w := by rwa [hclassify] at hmakes
  have hexecute : x.execute turn text s =
      Exec.run (.on v turn (.assignment [⟨attr, none, value⟩])) followed w := by
    simp only [execute, hprepare, executeProgram, classify, hclassify]
  rw [hexecute, Exec.run]
  have hbefore := hs.of_makes hmakes followed
  generalize (if followed then w.followRecommendation else w) = u at hbefore ⊢
  obtain ⟨⟨id, c, hfind, hobject, hschema, hasks⟩, -, hcompleted⟩ := hbefore
  obtain ⟨c', hwrite, rfl, rfl⟩ := hset c hschema hasks
  have hquery : c.isQuery = false := by
    simp [Command.isQuery, hschema, hkind, CommandKind.isQuery]
  have hwritten : (u.setTask ⟨id, none⟩ (.command c')).object id = .command c' := by
    rw [State.object_setTask, if_pos ⟨rfl, State.lt_of_object_command hobject⟩, hobject]
    rfl
  obtain ⟨r, t, hrun, hprogress⟩ :=
    Exec.performOrRecommend_asking (s := u.setTask ⟨id, none⟩ (.command c'))
      ((varIndex? v).getD turn) hfind hwritten hkind
  refine ⟨r, t, ?_, hprogress.of_completed fun w => iff_of_eq (congrArg (w ∈ ·) hcompleted)⟩
  exact (Exec.runKind_of_protocolTask _
    (Exec.protocolTask?_write hfind hobject hquery hwrite)).trans hrun

/-- An answer is an assignment to one field of the variable. -/
theorem Answers.gives (hrewriter : x.rewriter = .ofSugars Sugar.defaults)
    (h : x.Answers v schema s text a) :
    ∃ nameSpan fieldSpan span e attr value w followed,
      x.prepare text =
          .ok (⟨[.assign (.field (.name v nameSpan) attr fieldSpan) e span]⟩, followed) ∧
        Exec.eval x.registry e s = (.ok value, w) ∧ a.Gives schema.slots attr value := by
  cases a with
  | requestDisambiguation _ _ _ => exact h.elim
  | requestValue dialogue name =>
    obtain ⟨nameSpan, fieldSpan, span, e, value, w, htext, heval, hv, slot, hslot, rfl, haccepts⟩ := h
    obtain ⟨followed, hprepare⟩ := prepare_of_statement htext
    rw [hrewriter] at hprepare
    exact ⟨_, _, _, _, _, _, _, _, hprepare, heval, .value dialogue hslot haccepts hv⟩
  | requestConfirmation dialogue name =>
    obtain ⟨nameSpan, argSpan, callSpan, span, htext⟩ := h
    obtain ⟨followed, hprepare⟩ := prepare_of_statement htext
    have hsugar : x.rewriter.apply ⟨[.expr (.call (.name Sugar.confirm.id nameSpan)
        [.name v argSpan] [] callSpan) span]⟩ =
        ⟨[.assign (.field (.name v argSpan) confirmedAttr argSpan) (.bool true span) span]⟩ := by
      rw [hrewriter]
      rfl
    rw [hsugar] at hprepare
    have heval : Exec.eval x.registry (.bool true span) s = (.ok (.bool true), s) := by
      rw [Exec.eval]
    exact ⟨_, _, _, _, _, _, _, _, hprepare, heval, .confirmation dialogue name⟩

/-- An answer takes away what is asked for first. -/
theorem execute_answers {rest : List RecommendedAction}
    (hrewriter : x.rewriter = .ofSugars Sugar.defaults) (hkind : schema.kind = .intent)
    (hnames : (schema.slots.map (·.name)).Nodup)
    (hconfirmed : ∀ slot ∈ schema.slots, slot.name ≠ confirmedAttr)
    (h : x.Answers v schema s text a) (hs : s.Asking v schema (a :: rest)) :
    ∃ r t, x.execute turn text s = (.ok r, t) ∧ Progress v schema rest s r t := by
  obtain ⟨nameSpan, fieldSpan, span, e, attr, value, w, followed, hprepare, heval, hgives⟩ :=
    h.gives hrewriter
  refine execute_assigns hprepare heval hkind hs fun c hschema hasks => ?_
  cases hgives with
  | value dialogue hslot haccepts hv =>
    subst hschema
    obtain ⟨values, hset, hrest⟩ := Command.asks_set_slot hnames (hconfirmed _ hslot) hasks hslot
      rfl haccepts hv
    exact ⟨_, hset, rfl, hrest⟩
  | confirmation dialogue name =>
    exact ⟨_, c.set_confirmed true, hschema, Command.asks_set_confirmed hasks⟩

/-- What is left to ask for after some answers is what was asked for at first, less these. -/
theorem dialogue_progress {answered : List RecommendedAction}
    {ended : Except ExecError ActionResult × State}
    (hrewriter : x.rewriter = .ofSugars Sugar.defaults) (hkind : schema.kind = .intent)
    (hnames : (schema.slots.map (·.name)).Nodup)
    (hconfirmed : ∀ slot ∈ schema.slots, slot.name ≠ confirmedAttr)
    (hs : s.Asking v schema actions) (h : x.Dialogue v schema s answered ended) :
    ∃ r t rest, ended = (.ok r, t) ∧ actions = answered ++ rest ∧ Progress v schema rest s r t := by
  induction h with
  | refer turn htext =>
    obtain ⟨r, t, hexecute, hprogress⟩ := execute_refers hrewriter hkind htext hs
    exact ⟨r, t, actions, hexecute, rfl, hprogress⟩
  | @answer answered r t a text turn _ hasked htext ih =>
    obtain ⟨r', t', rest, hsame, rfl, hprogress⟩ := ih
    simp only [Prod.mk.injEq, Except.ok.injEq] at hsame
    obtain ⟨rfl, rfl⟩ := hsame
    rw [hprogress.action, List.head?_eq_some_iff] at hasked
    obtain ⟨rest, rfl⟩ := hasked
    obtain ⟨r', t', hexecute, hnext⟩ :=
      execute_answers hrewriter hkind hnames hconfirmed htext hprogress.asking
    refine ⟨r', t', rest, hexecute, by simp, hnext.of_completed fun w => ?_⟩
    simp [hprogress.completed]

/-- A dialogue with an intent asks for its empty required slots in the order of the schema, each of
them once, and for the confirmation last if one is required and was not given. After as many
answers the task is performed and its variable completed, and not before. -/
theorem dialogue_performs {id : Nat} {c : Command} {answered : List RecommendedAction}
    {ended : Except ExecError ActionResult × State}
    (hrewriter : x.rewriter = .ofSugars Sugar.defaults) (hkind : c.schema.kind = .intent)
    (hnames : (c.schema.slots.map (·.name)).Nodup)
    (hconfirmed : ∀ slot ∈ c.schema.slots, slot.name ≠ confirmedAttr)
    (hfind : s.find? v = some (.object id)) (hobject : s.object id = .command c)
    (h : x.Dialogue v c.schema s answered ended) :
    let all := c.missing.map .askValue ++ if c.unconfirmed then [.askConfirmation] else []
    let count := c.missing.length + if c.unconfirmed then 1 else 0
    c.missing.Nodup ∧ answered.length ≤ count ∧ answered = all.take answered.length ∧
      ∃ r t, ended = (.ok r, t) ∧ r.recommendedAction = all[answered.length]? ∧
        (answered.length < count → r.result = none ∧ ∀ w, w ∈ t.completed ↔ w ∈ s.completed) ∧
        (answered.length = count → answered = all ∧ r.result = some (.inform "Success") ∧
          t.recommendation = none ∧ ∀ w, w ∈ t.completed ↔ w ∈ s.completed ∨ w = v) := by
  intro all count
  have hcount : all.length = count := c.length_asks
  obtain ⟨r, t, rest, rfl, hall, hprogress⟩ := dialogue_progress hrewriter hkind hnames hconfirmed
    ⟨id, c, hfind, hobject, rfl, rfl⟩ h
  replace hall : all = answered ++ rest := hall
  have hlength : answered.length + rest.length = count := by
    rw [← hcount, hall, List.length_append]
  refine ⟨hnames.sublist (Command.missingIn_sublist ..), by omega, by simp [hall], r, t, rfl, ?_,
    fun hless => ?_, fun hdone => ?_⟩
  · rw [hprogress.action, hall, List.getElem?_append_right (Nat.le_refl _)]
    simp [List.head?_eq_getElem?]
  · have hne : rest ≠ [] := by
      rintro rfl
      simp at hlength
      omega
    refine ⟨by rw [hprogress.result, if_neg hne], fun w => ?_⟩
    simp [hprogress.completed, hne]
  · obtain rfl : rest = [] := List.length_eq_zero_iff.mp (by omega)
    refine ⟨by simp [hall], by rw [hprogress.result, if_pos rfl], ?_, fun w => ?_⟩
    · simp [hprogress.recommendation]
    · simp [hprogress.completed]

/-- An alarm with a label needs its time and a confirmation. -/
theorem dialogue_performs_alarm :
    let schema : CommandSchema := ⟨"create_alarm", .intent, [⟨"time", .str, true, [], false⟩,
      ⟨"label", .str, true, [], false⟩, ⟨"volume", .int, false, [], false⟩], [], true, none⟩
    let x : Executor := ⟨.ofSchemas [schema], Sugar.defaults, .defaults⟩
    let c : Command := ⟨schema, [.none, .str "swim", .none], false, [], []⟩
    let s : State := ⟨[.command c], [("x0", .object 0)], .empty, [], none⟩
    ∃ ended, x.Dialogue "x0" schema s [.askValue "time", .askConfirmation] ended ∧
      ∃ r t, ended = (.ok r, t) ∧ r.result = some (.inform "Success") ∧ "x0" ∈ t.completed := by
  intro schema x c s
  have hfind : s.find? "x0" = some (.object 0) := rfl
  have hobject : s.object 0 = .command c := rfl
  have hevery : ∀ answered ended, x.Dialogue "x0" schema s answered ended →
      ∃ r t, ended = (.ok r, t) ∧
        r.recommendedAction = [.askValue "time", .askConfirmation][answered.length]? ∧
        (answered.length = 2 → r.result = some (.inform "Success") ∧ "x0" ∈ t.completed) := by
    intro answered ended h
    obtain ⟨-, -, -, r, t, hended, haction, -, hdone⟩ :=
      dialogue_performs rfl rfl (by decide) (by decide) hfind hobject h
    refine ⟨r, t, hended, haction, fun hlength => ?_⟩
    obtain ⟨-, hresult, -, hcompleted⟩ := hdone hlength
    exact ⟨hresult, (hcompleted "x0").mpr (.inr rfl)⟩
  have hrefers : x.Refers "x0" "x0" := ⟨⟨0, 2⟩, ⟨0, 2⟩, by decide +kernel⟩
  have hfirst : x.Dialogue "x0" schema s [] (x.execute 1 "x0" s) := .refer 1 hrefers
  obtain ⟨r, t, hended, hasked, -⟩ := hevery _ _ hfirst
  rw [hended] at hfirst
  have htime : x.Answers "x0" schema t "x0.time = \"8:30\" #y" (.askValue "time") :=
    ⟨⟨0, 2⟩, ⟨0, 7⟩, ⟨0, 16⟩, .str "8:30" ⟨10, 16⟩, .str "8:30", t, by decide +kernel,
      by rw [Exec.eval], rfl, ⟨"time", .str, true, [], false⟩, List.mem_cons_self, rfl, rfl⟩
  have hsecond := hfirst.answer 2 hasked htime
  obtain ⟨r, t, hended, hasked, -⟩ := hevery _ _ hsecond
  rw [hended] at hsecond
  have hconfirm : x.Answers "x0" schema t "confirm(x0)" .askConfirmation :=
    ⟨⟨0, 7⟩, ⟨8, 10⟩, ⟨0, 11⟩, ⟨0, 11⟩, by decide +kernel⟩
  have hthird := hsecond.answer 3 hasked hconfirm
  obtain ⟨r, t, hended, -, hdone⟩ := hevery _ _ hthird
  exact ⟨_, hthird, r, t, hended, hdone rfl⟩

end Executor

end TaskDialogue
