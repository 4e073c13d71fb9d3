import TaskDialogue.Proofs.Turn.Building
import TaskDialogue.Proofs.Turn.Extension
import TaskDialogue.Proofs.Turn.Frame

/-!
# The results of a query

A query that is performed reports the records that it finds and keeps them. Later turns come to them
in several ways: they read an attribute of one of them, count them, and copy the first or the only
one. All of these show the same items, which are those that were reported.
-/
namespace TaskDialogue

/-- The value of an attribute, or the error of an attribute that the entity does not have. -/
def Entity.attribute (e : Entity) (attr : String) : Except ExecError Value :=
  match e.get? attr with
  | some value => .ok value
  | none => .error (.unknownAttribute e.kind attr)

/-- A statement that calls a command on a variable, and does nothing else. -/
inductive Stmt.IsCall (command var : String) : Stmt → Prop where
  | mk (nameSpan varSpan callSpan span : Span) :
    IsCall command var (.expr (.call (.name command nameSpan) [.name var varSpan] [] callSpan) span)

namespace Exec

/-! ### Reading a result -/

section

variable {registry : Registry} {s : State} {v attr : String} {id : Nat} {c : Command} {e : Entity}
  {index : Expr} {i : Option Int64} {varSpan baseSpan : Span}

theorem evalField_query (hfind : s.find? v = some (.object id)) (hobject : s.object id = .command c)
    (hquery : c.isQuery = true) (hindex : index.IsIndex i) :
    evalField s (.subscript (.name v varSpan) index baseSpan) attr =
      match c.entityIndex v i with
      | .error e => .error e
      | .ok none => .error (.noEntity v)
      | .ok (some position) => (s.task ⟨id, some position⟩).get attr := by
  simp only [evalField, subscriptIndex_eq_ok.mpr hindex, State.lookup, hfind, State.resolve, hobject,
    hquery, if_true, Bind.bind, Except.bind]
  cases c.entityIndex v i with
  | error e => rfl
  | ok found => cases found <;> rfl

theorem get_result {position : Nat} (hobject : s.object id = .command c)
    (he : c.results[position]? = some e) :
    (s.task ⟨id, some position⟩).get attr = e.attribute attr := by
  rw [State.task, hobject]
  simp only [TaskObject.part, he]
  rfl

end

/-! ### Calls on a query -/

section

variable {registry : Registry} {s : State} {name v : String} {kind : CommandKind} {value : Value}
  {nameSpan varSpan span : Span}

/-- An auxiliary command of one slot. -/
def unary (name : String) (kind : CommandKind) : CommandSchema :=
  Registry.auxiliarySchema name kind [("args", .any)]

/-- A new command of one slot, and the value that it was given. -/
def unaryCommand (name : String) (kind : CommandKind) (value : Value) : Command :=
  ⟨unary name kind, [value], false, [], []⟩

theorem eval_unary (hname : registry.get? name = some (unary name kind))
    (hfind : s.find? v = some value) :
    eval registry (.call (.name name nameSpan) [.name v varSpan] [] span) s =
      (.ok (.object s.nextId), s.alloc (.command (unaryCommand name kind value))) := by
  have hfew : [Expr.name v varSpan].length ≤ (unary name kind).positional.length := Nat.le_refl 1
  have hlookup : s.lookup v = .ok value := by simp [State.lookup, hfind]
  have hset : (Command.ofSchema (unary name kind)).set "args" value =
      .ok (unaryCommand name kind value) := by
    cases value <;> rfl
  have hargs : fillPositional registry [.name v varSpan] (unary name kind).positional
      (.ofSchema (unary name kind)) s = (.ok (unaryCommand name kind value), s) := by
    have hpositional : (unary name kind).positional = ["args"] := rfl
    simp only [hpositional, fillPositional, eval, hlookup, hset]
  exact eval_call_of_filled hname hfew hargs (by simp only [fillKeywords])

/-- What is made of the command is said by its kind, and by the value that it was given. -/
theorem callKind_unary (s : State) (name : String) (kind : CommandKind) (value : Value) :
    let w := s.alloc (.command (unaryCommand name kind value))
    callKind w (.object s.nextId) =
      match kind with
      | .perform => .ok (.perform (performBinding w (some value)))
      | .len => (resultCount w (some value)).map fun n => .value (.int (Int64.ofNat n))
      | .next => (firstResult w (some value)).map .next
      | _ => .ok (.command s.nextId false) := by
  intro w
  have hobject : w.object s.nextId = .command (unaryCommand name kind value) := by
    rw [State.object_alloc, State.nextId, if_pos rfl]
  simp only [callKind, hobject]
  rfl

end

section

variable {s : State} {id : Nat} {c : Command}

theorem queryArg?_object (hobject : s.object id = .command c) (hquery : c.isQuery = true) :
    queryArg? s (some (.object id)) = some c := by
  simp [queryArg?, hobject, TaskObject.command?, hquery]

theorem resultCount_query (hobject : s.object id = .command c) (hquery : c.isQuery = true) :
    resultCount s (some (.object id)) = .ok c.results.length := by
  simp only [resultCount, queryArg?_object hobject hquery]

theorem firstResult_query (hobject : s.object id = .command c) (hquery : c.isQuery = true) :
    firstResult s (some (.object id)) = .ok c.results.head? := by
  simp only [firstResult, queryArg?_object hobject hquery]

theorem performBinding_single {e : Entity} (hobject : s.object id = .command c)
    (hquery : c.isQuery = true) (hresults : c.results = [e]) :
    performBinding s (some (.object id)) = some (.copied e) := by
  simp only [performBinding, hobject, hquery, hresults]

theorem performBinding_several (hobject : s.object id = .command c)
    (hresults : 1 < c.results.length) : performBinding s (some (.object id)) = none := by
  simp only [performBinding, hobject]
  split
  · next heq => simp [heq] at hresults
  · rfl

/-- A command stays where it is when something is added to the store. -/
theorem object_alloc_command (hobject : s.object id = .command c) (o : TaskObject) :
    (s.alloc o).object id = .command c := by
  rw [State.object_alloc, if_neg (Nat.ne_of_lt (State.lt_of_object_command hobject)), hobject]

theorem callKind_len (name : String) (hobject : s.object id = .command c)
    (hquery : c.isQuery = true) :
    callKind (s.alloc (.command (unaryCommand name .len (.object id)))) (.object s.nextId) =
      .ok (.value (.int (Int64.ofNat c.results.length))) := by
  rw [callKind_unary]
  simp only [resultCount_query (object_alloc_command hobject _) hquery, Except.map]

theorem callKind_next (name : String) (hobject : s.object id = .command c)
    (hquery : c.isQuery = true) :
    callKind (s.alloc (.command (unaryCommand name .next (.object id)))) (.object s.nextId) =
      .ok (.next c.results.head?) := by
  rw [callKind_unary]
  simp only [firstResult_query (object_alloc_command hobject _) hquery, Except.map]

theorem callKind_perform (name : String) (value : Value) :
    callKind (s.alloc (.command (unaryCommand name .perform value))) (.object s.nextId) =
      .ok (.perform (performBinding (s.alloc (.command (unaryCommand name .perform value)))
        (some value))) := by
  rw [callKind_unary]

/-- The output of a call that advances no task is a value, or there is none. -/
theorem runKind_idle_result {var : String} {index : Nat} {kind : CallKind} {r : ActionResult}
    {t : State} {dialogue : String} {items : List Entity} (hkind : kind.advances = false)
    (h : runKind var index kind s = (.ok r, t)) : r.result ≠ some (.informList dialogue items) := by
  have hresult : (runKind var index kind s).1 = .ok r := by rw [h]
  cases kind with
  | command _ _ | append _ _ => simp [CallKind.advances] at hkind
  | assignment updates =>
    obtain rfl : updates = [] := by simpa [CallKind.advances] using hkind
    rw [← Except.ok.inj hresult]
    simp [ActionResult.empty]
  | perform binding =>
    obtain _ | ⟨_ | _⟩ := binding <;> rw [← Except.ok.inj hresult] <;> simp [ActionResult.empty]
  | next entity | value value =>
    rw [← Except.ok.inj hresult]
    simp [ActionResult.performed]

end

end Exec

/-- Items are reported by a query only, which keeps them. -/
theorem TaskObject.perform_informList {o o' : TaskObject} {context : AppContext} {dialogue : String}
    {items : List Entity} (h : o.perform context = .ok (some (.informList dialogue items), o')) :
    ∃ c entity, o = .command c ∧ c.schema.kind = .query entity ∧ items ≠ [] ∧
      items = context.records entity ∧ o' = .command { c with results := items } := by
  cases o with
  | entity e => simp [perform] at h
  | command c =>
    obtain ⟨⟨output, c'⟩, hc, hr⟩ := map_eq_ok.mp h
    obtain ⟨rfl, rfl⟩ := Prod.mk.inj hr
    unfold Command.perform at hc
    split at hc
    · simp at hc
    · next entity hkind =>
      dsimp only at hc
      split at hc
      · simp at hc
      · next hfound =>
        simp only [Except.ok.injEq, Prod.mk.injEq, Option.some.injEq,
          ActionOutput.informList.injEq] at hc
        obtain ⟨⟨-, rfl⟩, rfl⟩ := hc
        exact ⟨c, entity, rfl, hkind, by simpa using hfound, rfl, rfl⟩
    all_goals simp at hc

/-- What reports items is a query as a whole, which keeps them, and its variable is bound to it. -/
theorem Exec.Performs.reports {var dialogue : String} {target : TaskRef} {s t : State}
    {r : ActionResult} {items : List Entity}
    (h : Performs var target s (some (.informList dialogue items)) r t)
    (htarget : s.Targets var target) :
    ∃ id c entity, target = ⟨id, none⟩ ∧ t.find? var = some (.object id) ∧
      t.object id = .command c ∧ c.schema.kind = .query entity ∧ items ≠ [] ∧
        items = t.context.records entity ∧ items = c.results := by
  obtain ⟨id, part⟩ := target
  obtain ⟨changed, hperform, rfl⟩ := h.state
  obtain ⟨c, entity, htask, hkind, hne, hrecords, rfl⟩ := TaskObject.perform_informList hperform
  obtain rfl : part = none := by
    cases part with
    | none => rfl
    | some position =>
      obtain ⟨e, he⟩ := TaskObject.part_entity (htarget.2 position rfl)
      rw [State.task, he] at htask
      cases htask
  rw [State.task, TaskObject.part_none] at htask
  have hlt : id < { s with recommendation := none }.objects.length :=
    State.lt_of_object_command htask
  exact ⟨id, _, entity, rfl, htarget.1, State.object_setTask_none hlt _, hkind, hne, hrecords, rfl⟩

namespace Executor

/-- A turn text calls a command on a variable, and does nothing else. -/
def CallsOn (x : Executor) (name v text : String) : Prop :=
  ∃ stmt followed, x.prepare text = .ok (⟨[stmt]⟩, followed) ∧ stmt.IsCall name v

/-- However `v[index].attr` is written, to evaluate it has this outcome and changes nothing. -/
def Reads (x : Executor) (s : State) (v : String) (i : Option Int64) (attr : String)
    (outcome : Except ExecError Value) : Prop :=
  ∀ index, index.IsIndex i → ∀ varSpan baseSpan span,
    Exec.eval x.registry (.field (.subscript (.name v varSpan) index baseSpan) attr span) s =
      (outcome, s)

/-- A turn succeeds and binds its variable to a new object, which is a copy of an entity. -/
def Copies (x : Executor) (s : State) (turn : Nat) (text : String) (e : Entity) : Prop :=
  ∃ r t id, x.execute turn text s = (.ok r, t) ∧ s.objects.length ≤ id ∧
    t.find? (varName turn) = some (.object id) ∧ t.object id = .entity e

/-- All ways in which a turn comes to the results of the query that a variable is bound to show the
same items. -/
structure Shows (x : Executor) (s : State) (v : String) (items : List Entity) : Prop where
  single : ∀ e, items = [e] → ∀ i attr, x.Reads s v i attr (e.attribute attr)
  within : ∀ (i : Int64) e, 0 ≤ i.toInt → items[i.toInt.toNat]? = some e →
    ∀ attr, x.Reads s v (some i) attr (e.attribute attr)
  several : 1 < items.length → ∀ attr, x.Reads s v none attr (.error (.multipleEntities v))
  outside : ∀ i : Int64, 1 < items.length → ¬(0 ≤ i.toInt ∧ i.toInt < items.length) →
    ∀ attr, x.Reads s v (some i) attr (.error (.indexOutOfBound v i.toInt items.length))
  len : ∀ turn text, x.CallsOn "len" v text → ∃ r t, x.execute turn text s = (.ok r, t) ∧
    r.result = some (.value (.int (Int64.ofNat items.length))) ∧
      t.find? (varName turn) = some (.int (Int64.ofNat items.length))
  next : ∀ e, items.head? = some e → ∀ turn text, x.CallsOn "next" v text → x.Copies s turn text e
  perform : ∀ e, items = [e] → ∀ turn text, x.CallsOn "perform" v text → x.Copies s turn text e
  perform_several : 1 < items.length → ∀ turn text, x.CallsOn "perform" v text →
    ∃ r t, x.execute turn text s = (.ok r, t) ∧ r.result = none ∧ t.bindings = s.bindings

variable {x : Executor} {s : State} {v : String} {id : Nat} {c : Command}

/-- A call of an auxiliary command makes it, and then does what its kind says. -/
theorem execute_callsOn {name text : String} {kind : CommandKind} {value : Value} {made : CallKind}
    (hname : x.registry.get? name = some (Exec.unary name kind)) (hfind : s.find? v = some value)
    (htext : x.CallsOn name v text)
    (hmade : Exec.callKind (s.alloc (.command (Exec.unaryCommand name kind value)))
      (.object s.nextId) = .ok made) (turn : Nat) :
    ∃ index u, u.bindings = s.bindings ∧ s.objects.length ≤ u.objects.length ∧
      x.execute turn text s = Exec.runKind (varName turn) index made u := by
  obtain ⟨stmt, followed, hprepare, hcall⟩ := htext
  obtain ⟨nameSpan, varSpan, callSpan, span⟩ := hcall
  have heval : Exec.eval x.registry (.call (.name name nameSpan) [.name v varSpan] [] callSpan) s =
      (.ok (.object s.nextId), s.alloc (.command (Exec.unaryCommand name kind value))) :=
    Exec.eval_unary hname hfind
  generalize hw : s.alloc (.command (Exec.unaryCommand name kind value)) = w at heval hmade
  have hbindings : w.bindings = s.bindings := by rw [← hw]; rfl
  have hlength : s.objects.length ≤ w.objects.length := by simp [← hw, State.alloc]
  refine ⟨(Call.on (varName turn) turn made).index,
    if followed then w.followRecommendation else w, ?_, ?_, ?_⟩
  · cases followed <;> simp [hbindings]
  · cases followed <;> simp [hlength]
  · simp only [execute, hprepare, executeProgram, classify, Exec.classify, Exec.classifyStmt, heval,
      hmade, Except.map, Exec.run]
    rfl

theorem reads_result {i : Option Int64} {position : Nat} {e : Entity}
    (hfind : s.find? v = some (.object id)) (hobject : s.object id = .command c)
    (hquery : c.isQuery = true) (hindex : c.entityIndex v i = .ok (some position))
    (he : c.results[position]? = some e) (attr : String) :
    x.Reads s v i attr (e.attribute attr) := by
  intro index hi varSpan baseSpan span
  simp only [Exec.eval, Exec.evalField_query hfind hobject hquery hi, hindex,
    Exec.get_result hobject he]

theorem reads_error {i : Option Int64} {e : ExecError} (hfind : s.find? v = some (.object id))
    (hobject : s.object id = .command c) (hquery : c.isQuery = true)
    (hindex : c.entityIndex v i = .error e) (attr : String) : x.Reads s v i attr (.error e) := by
  intro index hi varSpan baseSpan span
  simp only [Exec.eval, Exec.evalField_query hfind hobject hquery hi, hindex]

theorem copies_of_bindCopy {turn : Nat} {text : String} {e : Entity} {r : ActionResult} {u : State}
    (hlength : s.objects.length ≤ u.objects.length)
    (h : x.execute turn text s = (.ok r, (Exec.bindCopy (varName turn) (some e) u).2)) :
    x.Copies s turn text e := by
  refine ⟨r, _, u.nextId, h, hlength, ?_, ?_⟩
  · simp [Exec.bindCopy, State.find?_bind]
  · have hobject : (u.alloc (.entity e)).object u.nextId = .entity e := by
      rw [State.object_alloc, State.nextId, if_pos rfl]
    exact hobject

/-- The results of a query are shown by each variable that it is bound to. -/
theorem shows_results {domain : List CommandSchema} (hregistry : x.registry = .ofSchemas domain)
    (hfind : s.find? v = some (.object id)) (hobject : s.object id = .command c)
    (hquery : c.isQuery = true) : x.Shows s v c.results := by
  have hname : ∀ {name kind}, Exec.unary name kind ∈ Registry.auxiliary →
      x.registry.get? name = some (Exec.unary name kind) := by
    intro name kind hmem
    rw [hregistry]
    exact Registry.get?_auxiliary domain hmem
  have hlen : x.registry.get? "len" = some (Exec.unary "len" .len) :=
    hname (by simp [Registry.auxiliary, Exec.unary])
  have hnext : x.registry.get? "next" = some (Exec.unary "next" .next) :=
    hname (by simp [Registry.auxiliary, Exec.unary])
  have hperform : x.registry.get? "perform" = some (Exec.unary "perform" .perform) :=
    hname (by simp [Registry.auxiliary, Exec.unary])
  constructor
  · intro e he i attr
    exact reads_result hfind hobject hquery (Command.entityIndex_single he i) (by simp [he]) attr
  · intro i e hi he attr
    have hlt := (List.getElem?_eq_some_iff.mp he).1
    exact reads_result hfind hobject hquery (Command.entityIndex_within hi (by omega)) he attr
  · intro hseveral attr
    exact reads_error hfind hobject hquery (Command.entityIndex_several hseveral) attr
  · intro i hseveral hi attr
    exact reads_error hfind hobject hquery (Command.entityIndex_outside hseveral hi) attr
  · intro turn text htext
    obtain ⟨index, u, -, -, hrun⟩ := execute_callsOn hlen hfind htext
      (Exec.callKind_len "len" hobject hquery) turn
    exact ⟨_, _, hrun, rfl, by simp [State.find?_bind]⟩
  · intro e he turn text htext
    obtain ⟨index, u, -, hlength, hrun⟩ := execute_callsOn hnext hfind htext
      (Exec.callKind_next "next" hobject hquery) turn
    rw [he] at hrun
    exact copies_of_bindCopy hlength hrun
  · intro e he turn text htext
    obtain ⟨index, u, -, hlength, hrun⟩ := execute_callsOn hperform hfind htext
      (Exec.callKind_perform "perform" (.object id)) turn
    rw [Exec.performBinding_single (Exec.object_alloc_command hobject _) hquery he] at hrun
    exact copies_of_bindCopy hlength hrun
  · intro hseveral turn text htext
    obtain ⟨index, u, hbindings, -, hrun⟩ := execute_callsOn hperform hfind htext
      (Exec.callKind_perform "perform" (.object id)) turn
    rw [Exec.performBinding_several (Exec.object_alloc_command hobject _) hseveral] at hrun
    exact ⟨_, _, hrun, rfl, hbindings⟩

/-- A turn that reports items has performed a query that its variable is bound to. The items are the
records of the query's entity, of which there is at least one, and the query keeps them: every
variable that is bound to it shows them to later turns. -/
theorem query_reports {domain : List CommandSchema} (hregistry : x.registry = .ofSchemas domain)
    {turn : Nat} {text dialogue : String} {items : List Entity} {r : ActionResult} {t : State}
    (h : x.execute turn text s = (.ok r, t)) (hitems : r.result = some (.informList dialogue items)) :
    ∃ call u id c entity, x.call? turn text s = some (call, u) ∧
      x.performance? turn text s = some ⟨id, none⟩ ∧ t.find? call.var = some (.object id) ∧
      t.object id = .command c ∧ c.schema.kind = .query entity ∧
      items ≠ [] ∧ items = t.context.records entity ∧ items = c.results ∧
      ∀ v, t.find? v = some (.object id) → x.Shows t v items := by
  cases hcall : x.call? turn text s with
  | none =>
    obtain ⟨⟨e, he⟩, -⟩ := execute_of_no_call hcall
    simp [h] at he
  | some made =>
    obtain ⟨call, u⟩ := made
    rw [execute_of_call hcall] at h
    cases hadvances : call.kind.advances with
    | false => exact absurd hitems (Exec.runKind_idle_result hadvances h)
    | true =>
      obtain ⟨target, w, hprotocol, ⟨a, hrecommends⟩ | ⟨output, hperforms⟩⟩ :=
        Exec.runKind_advances hadvances h
      · rw [hrecommends.result] at hitems
        cases hitems
      · obtain rfl := hperforms.result.symm.trans hitems
        have htarget := (Exec.protocolTask?_cases (call?_cases hcall).1.assigned hprotocol).1
        obtain ⟨id, c, entity, rfl, hfind, hobject, hkind, hne, hrecords, rfl⟩ :=
          hperforms.reports htarget
        have hquery : c.isQuery = true := by simp [Command.isQuery, hkind, CommandKind.isQuery]
        refine ⟨call, u, id, c, entity, rfl, ?_, hfind, hobject, hkind, hne, hrecords, rfl,
          fun v hv => shows_results hregistry hv hobject hquery⟩
        simp [performance?, hcall, Exec.performance?, hprotocol, hperforms.asks]

/-- Two hotels are reported, and `len`, which counts two then, is one of the ways to come to them. -/
theorem query_reports_hotels :
    let schema : CommandSchema := ⟨"list_hotels", .query "Hotel", [], [], false, none⟩
    let items : List Entity := [⟨"Hotel", [("city", .str "Paris")]⟩, ⟨"Hotel", [("city", .str "Rome")]⟩]
    let x : Executor := ⟨.ofSchemas [schema], Sugar.defaults, .defaults⟩
    let s := State.new ⟨[("Hotel", items)]⟩
    ∃ r t, x.execute 0 "list_hotels()" s = (.ok r, t) ∧ x.Shows t "x0" items ∧
      x.CallsOn "len" "x0" "len(x0)" := by
  intro schema items x s
  have hok : (x.execute 0 "list_hotels()" s).1.toOption = some (.performed 0 (some (.informList
      "Found Hotel: Hotel with city Paris; Hotel with city Rome" items))) := by decide +kernel
  have hfind : (x.execute 0 "list_hotels()" s).2.find? "x0" = some (.object 0) := by decide +kernel
  have hperformed : x.performance? 0 "list_hotels()" s = some ⟨0, none⟩ := by decide +kernel
  have hcalls : x.CallsOn "len" "x0" "len(x0)" :=
    ⟨_, false, by decide +kernel, .mk ⟨0, 3⟩ ⟨4, 6⟩ ⟨0, 7⟩ ⟨0, 7⟩⟩
  generalize hrun : x.execute 0 "list_hotels()" s = ended at hok hfind
  obtain ⟨result, t⟩ := ended
  cases result with
  | error e => cases hok
  | ok r =>
    have hresult : r.result = some (.informList _ items) :=
      congrArg ActionResult.result (Option.some.inj hok)
    obtain ⟨call, u, id, c, entity, -, hid, -, -, -, -, -, -, hshows⟩ :=
      query_reports rfl hrun hresult
    obtain rfl : id = 0 := by simpa using hid.symm.trans hperformed
    exact ⟨r, t, rfl, hshows "x0" hfind, hcalls⟩

end Executor

end TaskDialogue
