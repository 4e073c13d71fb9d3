import TaskDialogue.Proofs.Store.Matching
import TaskDialogue.Exec.Executor

/-!
# Turns in states that match

A turn reads the places of a state only to look up what is there, so in two states that match under
a renaming it ends in the same way: with the same error, or with results that are the same up to the
renaming, and in states that match again. What is evaluated and classified, and what is run, is
compared part by part.
-/
namespace TaskDialogue

/-! ### Calls -/

def AttributeUpdate.rename (f : Nat → Nat) (u : AttributeUpdate) : AttributeUpdate :=
  { u with value := u.value.rename f }

def PerformBinding.rename (f : Nat → Nat) : PerformBinding → PerformBinding
  | .shared id => .shared (f id)
  | .copied e => .copied (e.rename f)

def CallKind.rename (f : Nat → Nat) : CallKind → CallKind
  | .command id assigned => .command (f id) assigned
  | .perform binding => .perform (binding.map (PerformBinding.rename f))
  | .assignment updates => .assignment (updates.map (AttributeUpdate.rename f))
  | .append attr v => .append attr (v.rename f)
  | .next entity => .next (entity.map (Entity.rename f))
  | .value v => .value (v.rename f)

def Call.rename (f : Nat → Nat) (call : Call) : Call := { call with kind := call.kind.rename f }

/-- The writes of an assignment by variable, with other names for the places in their values. -/
def renameGroups (f : Nat → Nat) (groups : List (String × List AttributeUpdate)) :
    List (String × List AttributeUpdate) :=
  groups.map fun g => (g.1, g.2.map (AttributeUpdate.rename f))

namespace Exec

/-- Two steps end alike: both fail with the same error, or the one gives what the other gives up to
a renaming, and in either case their states match under it. -/
inductive Matched {α β : Type} (f : Nat → Nat) (ρ : α → β) :
    Except ExecError α × State → Except ExecError β × State → Prop where
  | ok {a : α} {s t : State} (h : s.Matches f t) : Matched f ρ (.ok a, s) (.ok (ρ a), t)
  | error {e : ExecError} {s t : State} (h : s.Matches f t) : Matched f ρ (.error e, s) (.error e, t)

section

variable {registry : Registry} {f : Nat → Nat} {s t : State}

/-- What holds of a failure and of a success in states that match holds of steps that end alike. -/
@[elab_as_elim]
theorem Matched.elim {α β : Type} {ρ : α → β}
    {motive : Except ExecError α × State → Except ExecError β × State → Prop}
    {p : Except ExecError α × State} {q : Except ExecError β × State} (h : Matched f ρ p q)
    (error : ∀ e s t, s.Matches f t → motive (.error e, s) (.error e, t))
    (ok : ∀ a s t, s.Matches f t → motive (.ok a, s) (.ok (ρ a), t)) : motive p q := by
  cases h with
  | error h => exact error _ _ _ h
  | ok h => exact ok _ _ _ h

theorem Matched.of_map {α β : Type} {ρ : α → β} (h : s.Matches f t) (r : Except ExecError α) :
    Matched f ρ (r, s) (r.map ρ, t) := by
  cases r with
  | ok a => exact .ok h
  | error e => exact .error h

/-! ### Evaluation -/

theorem itemAt?_map (items : List Value) (index : Option Int64) :
    itemAt? (items.map (Value.rename f)) index = (itemAt? items index).map (Value.rename f) := by
  cases index with
  | none => rfl
  | some i =>
    simp only [itemAt?, List.getElem?_map]
    split <;> rfl

theorem evalField_rename (h : s.Matches f t) (base : Expr) (attr : String) :
    evalField t base attr = (evalField s base attr).map (Value.rename f) := by
  have hget : ∀ id, (t.object (f id)).get attr = ((s.object id).get attr).map (Value.rename f) :=
    fun id => by rw [h.object, TaskObject.get_rename]
  unfold evalField
  split
  · next var _ =>
    rw [h.lookup]
    cases s.lookup var with
    | error e => rfl
    | ok v =>
      cases v with
      | object id => exact hget id
      | none | bool | int | float | str | list => rfl
  · next var _ index _ =>
    have htask : ∀ place : Option Int64,
        (t.resolve var place).bind (fun target => (t.task target).get attr) =
          ((s.resolve var place).bind fun target => (s.task target).get attr).map
            (Value.rename f) := by
      intro place
      rw [h.resolve]
      cases s.resolve var place with
      | error e => rfl
      | ok target =>
        simp only [Except.map, Except.bind, h.task, TaskObject.get_rename]
    cases subscriptIndex index with
    | error e => rfl
    | ok place =>
      simp only [bind, Except.bind, h.lookup]
      cases s.lookup var with
      | error e => rfl
      | ok v =>
        cases v with
        | list items =>
          simp only [Except.map, Value.rename_list, itemAt?_map, List.length_map]
          cases itemAt? items place with
          | none => rfl
          | some item =>
            cases item with
            | object id => exact hget id
            | none | bool | int | float | str | list => rfl
        | object | none | bool | int | float | str => exact htask place
  · rfl

theorem rename_of_build {name : String} {c : Command} (h : registry.build name = .ok c) :
    c.rename f = c := by
  unfold Registry.build at h
  split at h
  · simp only [Except.ok.injEq] at h
    rw [← h, Command.rename_ofSchema]
  · simp at h

variable (registry)

mutual

/-- Evaluation reads and makes the same in states that match. -/
theorem eval_matched : ∀ (e : Expr) {s t : State}, s.Matches f t →
    Matched f (Value.rename f) (eval registry e s) (eval registry e t)
  | .none _, _, _, h | .bool _ _, _, _, h | .int _ _, _, _, h | .float _ _, _, _, h
  | .str _ _, _, _, h => .ok h
  | .name id _, s, t, h => by
    simp only [eval, h.lookup]
    exact .of_map h _
  | .field base attr _, s, t, h => by
    simp only [eval, evalField_rename h]
    exact .of_map h _
  | .subscript _ _ _, _, _, h => .error h
  | .list es _, s, t, h => by
    simp only [eval]
    cases hvalues : Expr.constantAll? es with
    | some values =>
      have hids : (Value.list values).ids = [] := by
        simpa [List.flatMap_eq_nil_iff] using Expr.ids_constantAll? hvalues
      have hsame : Matched f (Value.rename f) (.ok (.list values), s)
          (.ok ((Value.list values).rename f), t) := .ok h
      rwa [Value.rename_of_ids hids] at hsame
    | none =>
      refine (evalAll_matched es h).elim (fun _ _ _ => .error) fun values s' t' h' => ?_
      dsimp only
      rw [← Value.rename_list]
      exact .ok h'
  | .call func args keywords _, s, t, h => by
    simp only [eval]
    cases func.name? with
    | none => exact .error h
    | some name =>
      dsimp only
      cases hbuild : registry.build name with
      | error e => exact .error h
      | ok command =>
        dsimp only
        split
        · exact .error h
        · have hargs := fillPositional_matched args command.schema.positional command h
          rw [rename_of_build hbuild] at hargs
          refine hargs.elim (fun _ _ _ => .error) fun filled s' t' h' => ?_
          dsimp only
          refine (fillKeywords_matched keywords filled h').elim (fun _ _ _ => .error)
            fun full s'' t'' h'' => ?_
          dsimp only
          rw [h''.nextId, ← Value.rename_object]
          exact .ok (h''.alloc (.command full))

theorem evalAll_matched : ∀ (es : List Expr) {s t : State}, s.Matches f t →
    Matched f (List.map (Value.rename f)) (evalAll registry es s) (evalAll registry es t)
  | [], _, _, h => .ok h
  | e :: es, s, t, h => by
    simp only [evalAll]
    refine (eval_matched e h).elim (fun _ _ _ => .error) fun value s' t' h' => ?_
    dsimp only
    refine (evalAll_matched es h').elim (fun _ _ _ => .error) fun values s'' t'' h'' => ?_
    exact .ok h''

theorem fillPositional_matched : ∀ (es : List Expr) (slots : List String) (command : Command)
    {s t : State}, s.Matches f t →
      Matched f (Command.rename f) (fillPositional registry es slots command s)
        (fillPositional registry es slots (command.rename f) t)
  | [], _, _, _, _, h => .ok h
  | _ :: _, [], _, _, _, h => .ok h
  | e :: es, slot :: slots, command, s, t, h => by
    simp only [fillPositional]
    refine (eval_matched e h).elim (fun _ _ _ => .error) fun value s' t' h' => ?_
    dsimp only
    rw [Command.set_rename]
    cases command.set slot value with
    | error e => exact .error h'
    | ok filled => exact fillPositional_matched es slots filled h'

theorem fillKeywords_matched : ∀ (ks : List Keyword) (command : Command) {s t : State},
    s.Matches f t →
      Matched f (Command.rename f) (fillKeywords registry ks command s)
        (fillKeywords registry ks (command.rename f) t)
  | [], _, _, _, h => .ok h
  | ⟨slot, e, _⟩ :: ks, command, s, t, h => by
    simp only [fillKeywords]
    refine (eval_matched e h).elim (fun _ _ _ => .error) fun value s' t' h' => ?_
    dsimp only
    rw [Command.set_rename]
    cases command.set slot value with
    | error e => exact .error h'
    | ok filled => exact fillKeywords_matched ks filled h'

end

/-! ### Classification -/

theorem queryArg?_rename (h : s.Matches f t) (arg : Option Value) :
    queryArg? t (arg.map (Value.rename f)) = (queryArg? s arg).map (Command.rename f) := by
  rcases arg with _ | ⟨_ | _ | _ | _ | _ | _ | id⟩
  case some.object =>
    simp only [queryArg?, Option.map_some, Value.rename_object, h.object]
    cases s.object id with
    | entity e => rfl
    | command c =>
      simp only [TaskObject.rename, TaskObject.command?, Option.filter_some, Command.isQuery_rename]
      by_cases hquery : c.isQuery = true <;> simp [hquery]
  all_goals rfl

theorem argTypeName_rename (h : s.Matches f t) (arg : Option Value) :
    argTypeName t (arg.map (Value.rename f)) = argTypeName s arg := by
  rcases arg with _ | ⟨_ | _ | _ | _ | _ | _ | id⟩
  case some.object => simp [argTypeName, h.object]
  all_goals rfl

theorem resultCount_rename (h : s.Matches f t) (arg : Option Value) :
    resultCount t (arg.map (Value.rename f)) = resultCount s arg := by
  rcases arg with _ | ⟨_ | _ | _ | _ | _ | items | id⟩
  case some.list => simp only [Option.map_some, Value.rename_list, resultCount, List.length_map]
  case some.object =>
    have hquery := queryArg?_rename h (some (.object id))
    have htype := argTypeName_rename h (some (.object id))
    simp only [Option.map_some, Value.rename_object] at hquery htype ⊢
    simp only [resultCount, hquery, htype]
    cases queryArg? s (some (.object id)) with
    | none => rfl
    | some c => simp
  all_goals rfl

theorem firstResult_rename (h : s.Matches f t) (arg : Option Value) :
    firstResult t (arg.map (Value.rename f)) =
      (firstResult s arg).map (Option.map (Entity.rename f)) := by
  simp only [firstResult, queryArg?_rename h, argTypeName_rename h]
  cases queryArg? s arg with
  | none => rfl
  | some c => simp [Except.map]

theorem performBinding_rename (h : s.Matches f t) (arg : Option Value) :
    performBinding t (arg.map (Value.rename f)) =
      (performBinding s arg).map (PerformBinding.rename f) := by
  rcases arg with _ | ⟨_ | _ | _ | _ | _ | _ | id⟩
  case some.object =>
    simp only [performBinding, Option.map_some, Value.rename_object, h.object]
    cases s.object id with
    | entity e => rfl
    | command c =>
      simp only [TaskObject.rename, Command.isQuery_rename, Command.results_rename]
      rcases c.isQuery with _ | _ <;> rcases c.results with _ | ⟨e, _ | _⟩ <;> rfl
  all_goals rfl

/-- What a call to a command does depends on the command that was made. -/
theorem callKind_rename (h : s.Matches f t) (v : Value) :
    callKind t (v.rename f) = (callKind s v).map (CallKind.rename f) := by
  cases v with
  | object id =>
    simp only [callKind, Value.rename_object, h.object]
    cases s.object id with
    | entity e => rfl
    | command c =>
      simp only [TaskObject.rename, Command.value?_rename, Command.schema_rename]
      cases c.schema.kind with
      | perform => simp [performBinding_rename h, Except.map, CallKind.rename]
      | len =>
        simp only [resultCount_rename h]
        cases resultCount s (c.value? "args") <;> rfl
      | next =>
        simp only [firstResult_rename h]
        cases firstResult s (c.value? "args") <;> rfl
      | intent | query _ | say | hint => rfl
  | list items => simp [callKind, Except.map, CallKind.rename]
  | none | bool | int | float | str => rfl

theorem nameKind_rename (h : s.Matches f t) (v : Value) :
    nameKind t (v.rename f) = (nameKind s v).rename f := by
  cases v with
  | object id =>
    simp only [nameKind, Value.rename_object, h.object]
    cases s.object id <;> rfl
  | list items => simp [nameKind, CallKind.rename]
  | none | bool | int | float | str => rfl

theorem addUpdate_rename (var : String) (u : AttributeUpdate)
    (groups : List (String × List AttributeUpdate)) :
    addUpdate var (u.rename f) (renameGroups f groups) =
      renameGroups f (addUpdate var u groups) := by
  induction groups with
  | nil => rfl
  | cons g rest ih =>
    simp only [renameGroups, List.map_cons, addUpdate] at ih ⊢
    split
    · simp
    · rw [ih, List.map_cons]

theorem assignmentGroups_matched (targets es : List Expr)
    (groups : List (String × List AttributeUpdate)) {s t : State} (h : s.Matches f t) :
    Matched f (renameGroups f) (assignmentGroups registry targets es groups s)
      (assignmentGroups registry targets es (renameGroups f groups) t) := by
  induction targets generalizing es groups s t with
  | nil => exact .ok h
  | cons target targets ih =>
    cases es with
    | nil => exact .ok h
    | cons e es =>
      simp only [assignmentGroups]
      cases assignmentTarget target with
      | error e => exact .error h
      | ok parts =>
        obtain ⟨var, index, attr⟩ := parts
        dsimp only
        refine (eval_matched registry e h).elim (fun _ _ _ => .error) fun value s' t' h' => ?_
        have hrest := ih es (addUpdate var ⟨attr, index, value⟩ groups) h'
        rwa [← addUpdate_rename] at hrest

/-- A group is selected by the number of its writes and not by what they write. -/
theorem selectGroup_rename (policy : MultiTargetPolicy) (turn : Nat)
    (groups : List (String × List AttributeUpdate)) :
    selectGroup policy turn (renameGroups f groups) =
      (selectGroup policy turn groups).map (Call.rename f) := by
  have hnames : (renameGroups f groups).map (·.1) = groups.map (·.1) := by
    simp [renameGroups, Function.comp_def]
  have hlengths : (renameGroups f groups).map (·.2.length) = groups.map (·.2.length) := by
    simp [renameGroups, Function.comp_def]
  have hcount : (renameGroups f groups).length = groups.length := List.length_map ..
  have hfind : ∀ most, (renameGroups f groups).find? (·.2.length = most) =
      (groups.find? (·.2.length = most)).map
        fun g => (g.1, g.2.map (AttributeUpdate.rename f)) := by
    intro most
    simp only [renameGroups, List.find?_map, Function.comp_def, List.length_map]
  simp only [selectGroup, hnames, hlengths, hcount, hfind]
  split
  · rfl
  · cases groups.find? (·.2.length = (groups.map (·.2.length)).foldl max 0) <;> rfl

theorem classifyAssignment_matched (policy : MultiTargetPolicy) (turn : Nat)
    (targets values : List Expr) (h : s.Matches f t) :
    Matched f (Call.rename f) (classifyAssignment registry policy turn targets values s)
      (classifyAssignment registry policy turn targets values t) := by
  have hgroups : Matched f (renameGroups f) (assignmentGroups registry targets values [] s)
      (assignmentGroups registry targets values [] t) :=
    assignmentGroups_matched registry targets values [] h
  simp only [classifyAssignment]
  refine hgroups.elim (fun _ _ _ => .error) fun groups s' t' h' => ?_
  dsimp only
  rw [selectGroup_rename]
  exact .of_map h' _

/-- A renaming keeps the variable of a call and the index that it reports. -/
theorem Matched.on {var : String} {turn : Nat} {kind : CallKind} (h : s.Matches f t) :
    Matched f (Call.rename f) (.ok (.on var turn kind), s)
      (.ok (.on var turn (kind.rename f)), t) :=
  .ok h

theorem classifyStmt_matched (policy : MultiTargetPolicy) (turn : Nat) (stmt : Stmt)
    (h : s.Matches f t) :
    Matched f (Call.rename f) (classifyStmt registry policy turn stmt s)
      (classifyStmt registry policy turn stmt t) := by
  cases stmt with
  | append target value _ =>
    simp only [classifyStmt]
    cases appendTarget target with
    | error e => exact .error h
    | ok parts =>
      dsimp only
      exact (eval_matched registry value h).elim (fun _ _ _ => .error) fun _ _ _ => .on
  | assign target value _ => exact classifyAssignment_matched registry policy turn [target] [value] h
  | tupleAssign targets values _ => exact classifyAssignment_matched registry policy turn targets values h
  | expr e _ =>
    have he := eval_matched registry e h
    cases e with
    | call func args keywords span =>
      simp only [classifyStmt]
      refine he.elim (fun _ _ _ => .error) fun v s' t' h' => ?_
      dsimp only
      rw [callKind_rename h']
      cases callKind s' v with
      | error e => exact .error h'
      | ok kind => exact .on h'
    | name var span =>
      simp only [classifyStmt]
      refine he.elim (fun _ _ _ => .error) fun v s' t' h' => ?_
      dsimp only
      rw [nameKind_rename h']
      exact .on h'
    | none | bool | int | float | str | list | field | subscript =>
      simp only [classifyStmt]
      exact he.elim (fun _ _ _ => .error) fun _ _ _ => .on

theorem classify_matched (policy : MultiTargetPolicy) (turn : Nat) (p : Program)
    (h : s.Matches f t) :
    Matched f (Call.rename f) (classify registry policy turn p s)
      (classify registry policy turn p t) := by
  unfold classify
  split
  · exact .error h
  · exact classifyStmt_matched registry policy turn _ h
  · exact .error h

/-! ### Running -/

theorem performOrRecommend_matched (var : String) (index : Nat) (target : TaskRef)
    (h : s.Matches f t) :
    Matched f (ActionResult.rename f) (performOrRecommend var index target s)
      (performOrRecommend var index (target.rename f) t) := by
  have hcleared := h.recommend none
  have hperform : ((s.task target).rename f).perform t.context =
      ((s.task target).perform s.context).map
        fun done => (done.1.map (ActionOutput.rename f), done.2.rename f) := by
    rw [h.context]
    exact (s.task target).perform_rename h.literal
  simp only [performOrRecommend, h.task, TaskObject.recommend?_rename]
  cases (s.task target).recommend? with
  | some action => exact .ok (h.recommend _)
  | none =>
    have htask : ({ t with recommendation := none } : State).task (target.rename f) =
        (s.task target).rename f := hcleared.task target
    have hsame : ({ s with recommendation := none } : State).task target = s.task target := rfl
    dsimp only
    rw [htask, hsame, hperform]
    cases (s.task target).perform s.context with
    | error cause => exact .error hcleared
    | ok done => exact .ok ((hcleared.setTask target done.2).complete var)

theorem applyUpdates_matched (var : String) (updates : List AttributeUpdate)
    (target : Option TaskRef) {s t : State} (h : s.Matches f t) :
    Matched f (Option.map (TaskRef.rename f)) (applyUpdates var updates target s)
      (applyUpdates var (updates.map (AttributeUpdate.rename f))
        (target.map (TaskRef.rename f)) t) := by
  induction updates generalizing target s t with
  | nil => exact .ok h
  | cons u rest ih =>
    simp only [List.map_cons, applyUpdates, AttributeUpdate.rename, h.resolve]
    cases s.resolve var u.index with
    | error e => exact .error h
    | ok place =>
      simp only [Except.map, h.task, TaskObject.set_rename]
      cases (s.task place).set u.attr u.value with
      | error e => exact .error h
      | ok changed => exact ih (some place) (h.setTask place changed)

theorem bindCopy_matched (var : String) (entity : Option Entity) (h : s.Matches f t) :
    (bindCopy var (entity.map (Entity.rename f)) t).1 = (bindCopy var entity s).1.rename f ∧
      (bindCopy var entity s).2.Matches f (bindCopy var (entity.map (Entity.rename f)) t).2 := by
  cases entity with
  | none => exact ⟨rfl, h.bind var .none⟩
  | some e =>
    have hcopied := (h.alloc (.entity e)).bind var (.object s.nextId)
    simp only [bindCopy, Option.map_some, h.nextId]
    exact ⟨rfl, hcopied⟩

theorem runKind_matched (var : String) (index : Nat) (kind : CallKind) (h : s.Matches f t) :
    Matched f (ActionResult.rename f) (runKind var index kind s)
      (runKind var index (kind.rename f) t) := by
  cases kind with
  | command id assigned =>
    cases assigned with
    | true => exact performOrRecommend_matched var index ⟨id, none⟩ h
    | false => exact performOrRecommend_matched var index ⟨id, none⟩ (h.bind var (.object id))
  | perform binding =>
    rcases binding with _ | id | e
    · exact .ok h
    · exact .ok (h.bind var (.object id))
    · exact .ok (bindCopy_matched var (some e) h).2
  | assignment updates =>
    have hupdates : Matched f (Option.map (TaskRef.rename f)) (applyUpdates var updates none s)
        (applyUpdates var (updates.map (AttributeUpdate.rename f)) none t) :=
      applyUpdates_matched var updates none h
    simp only [runKind, CallKind.rename]
    refine hupdates.elim (fun _ _ _ => .error) fun target s' t' h' => ?_
    cases target with
    | none => exact .ok h'
    | some target => exact performOrRecommend_matched var index target h'
  | append attr v =>
    simp only [runKind, CallKind.rename, h.resolve]
    cases s.resolve var none with
    | error e => exact .error h
    | ok target =>
      simp only [Except.map, h.task, TaskObject.append_rename]
      cases (s.task target).append attr v with
      | error e => exact .error h
      | ok changed => exact performOrRecommend_matched var index target (h.setTask target changed)
  | next entity =>
    obtain ⟨hvalue, hcopied⟩ := bindCopy_matched var entity h
    simp only [runKind, CallKind.rename, hvalue]
    exact .ok hcopied
  | value v => exact .ok (h.bind var v)

theorem run_matched (call : Call) (followed : Bool) (h : s.Matches f t) :
    Matched f (ActionResult.rename f) (run call followed s) (run (call.rename f) followed t) := by
  cases followed with
  | true => exact runKind_matched call.var call.index call.kind h.followRecommendation
  | false => exact runKind_matched call.var call.index call.kind h

end

end Exec

/-- A turn ends alike in states that match, whatever its text. -/
theorem Executor.execute_matched (x : Executor) (turn : Nat) (text : String) {f : Nat → Nat}
    {s t : State} (h : s.Matches f t) :
    Exec.Matched f (ActionResult.rename f) (x.execute turn text s) (x.execute turn text t) := by
  unfold Executor.execute
  split
  · exact .error h
  · next p followed _ =>
    have hcall := Exec.classify_matched x.registry x.options.multiTargetPolicy turn p h
    simp only [Executor.executeProgram, Executor.classify]
    exact hcall.elim (fun _ _ _ => .error) fun call _ _ => Exec.run_matched call followed

end TaskDialogue
