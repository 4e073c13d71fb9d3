import TaskDialogue.Proofs.Turn.Dialogue
import TaskDialogue.Proofs.Turn.Session
import TaskDialogue.Proofs.Turn.Settled

/-!
# Queries that ask for input

A write through a variable that is bound to a query goes to one of its results, so no turn ever
writes to the slots of the query or to its confirmation. A query that asks for input has found
nothing: what it asks for is refused when it is given, and it goes on asking for it.
-/
namespace TaskDialogue

namespace State

/-- The object at a place of the store is this command, whatever it has found and been told. -/
def HoldsTask (s : State) (id : Nat) (c : Command) : Prop :=
  ∃ results followed, s.object id = .command { c with results, followed }

variable {s t : State} {id : Nat} {c : Command} {var : String} {index : Option Int64}
  {target : TaskRef} {changed : TaskObject}

namespace HoldsTask

theorem of_object (h : s.object id = .command c) : s.HoldsTask id c := ⟨c.results, c.followed, h⟩

theorem lt (hs : s.HoldsTask id c) : id < s.objects.length := by
  obtain ⟨_, _, hobject⟩ := hs
  exact lt_of_object_command hobject

/-- What a command has found and been told plays no part in what it asks for. -/
theorem recommend? (hs : s.HoldsTask id c) : (s.object id).recommend? = c.recommend? := by
  obtain ⟨_, _, hobject⟩ := hs
  rw [hobject]
  rfl

/-- A write to a result of the command leaves the command as it is. -/
theorem setTask_result {position : Nat} (hs : s.HoldsTask id c)
    (hlt : position < (s.object id).resultCount)
    (hw : (s.task ⟨id, some position⟩).Written changed) :
    (s.setTask ⟨id, some position⟩ changed).HoldsTask id c := by
  obtain ⟨results, followed, hobject⟩ := hs
  obtain ⟨d, e, hd, hresult⟩ := TaskObject.withPart_result hlt hw
  obtain rfl : d = { c with results, followed } := TaskObject.command.inj (hd.symm.trans hobject)
  refine ⟨results.set position e, followed, ?_⟩
  rw [object_setTask, if_pos ⟨rfl, lt_of_object_command hobject⟩]
  exact hresult

theorem setTask_other (hs : s.HoldsTask id c) (hid : target.id ≠ id) :
    (s.setTask target changed).HoldsTask id c := by
  obtain ⟨results, followed, hobject⟩ := hs
  exact ⟨results, followed, by rw [object_setTask, if_neg fun h => hid h.1, hobject]⟩

/-- A write through a variable leaves a query as it is. -/
theorem write (hquery : c.isQuery = true) (hs : s.HoldsTask id c)
    (hresolve : s.resolve var index = .ok target) (hw : (s.task target).Written changed) :
    (s.setTask target changed).HoldsTask id c := by
  by_cases hid : target.id = id
  · subst hid
    obtain ⟨id, entity⟩ := target
    obtain ⟨position, rfl, hlt⟩ | ⟨rfl, hother⟩ := resolve_part hresolve
    · exact hs.setTask_result hlt hw
    · obtain ⟨_, _, hobject⟩ := hs
      exact absurd (hother _ hobject) (ne_false_of_eq_true hquery)
  · exact hs.setTask_other hid

theorem perform {context : AppContext} {output : Option ActionOutput} (hs : s.HoldsTask id c)
    (htargets : s.Targets var target)
    (h : (s.task target).perform context = .ok (output, changed)) :
    (s.setTask target changed).HoldsTask id c := by
  by_cases hid : target.id = id
  · subst hid
    obtain ⟨id, entity⟩ := target
    cases entity with
    | some position =>
      have hlt := htargets.2 position rfl
      exact hs.setTask_result hlt (TaskObject.perform_result hlt h)
    | none =>
      have hlt := hs.lt
      obtain ⟨results, followed, hobject⟩ := hs
      simp only [task, TaskObject.part_none] at h hobject
      rw [HoldsTask, object_setTask, if_pos ⟨rfl, hlt⟩, TaskObject.withPart_none]
      obtain rfl | ⟨d, entity, hd, -, -, rfl⟩ := TaskObject.perform_cases h
      · exact ⟨results, followed, hobject⟩
      · obtain rfl : d = { c with results, followed } :=
          TaskObject.command.inj (hd.symm.trans hobject)
        exact ⟨context.records entity, followed, rfl⟩
  · exact hs.setTask_other hid

/-- No step of a turn changes what a query asks with. -/
theorem steps (hquery : c.isQuery = true) : StepInvariant (HoldsTask · id c) where
  congr hs hobjects := by
    obtain ⟨results, followed, hobject⟩ := hs
    exact ⟨results, followed, by rw [← hobject, object, object, hobjects]⟩
  makes hmakes hs := by
    have hlt := hs.lt
    obtain ⟨results, followed, hobject⟩ := hs
    exact ⟨results, followed, by rw [hmakes.object_of_lt hlt, hobject]⟩
  copy e hs := by
    have hlt := hs.lt
    obtain ⟨results, followed, hobject⟩ := hs
    exact ⟨results, followed, by rw [← hobject]; exact object_append hlt⟩
  follow {s} hs := by
    obtain ⟨results, followed, hobject⟩ := hs
    obtain hsame | ⟨_, action, -, -, hnotified⟩ := s.object_followRecommendation id
    · exact ⟨results, followed, hsame.trans hobject⟩
    · refine ⟨results, followed ++ [action.name], ?_⟩
      rw [hnotified, hobject]
      rfl
  write hresolve hw hs := hs.write hquery hresolve hw
  perform ht _ hperform hs := hs.perform ht hperform

end HoldsTask

end State

/-! ### What a query refuses -/

namespace State

variable {s : State} {id : Nat} {c : Command} {var : String}

theorem resolve_query_nil (hfind : s.find? var = some (.object id))
    (hobject : s.object id = .command c) (hquery : c.isQuery = true) (hresults : c.results = []) :
    s.resolve var none = .error (.noEntity var) := by
  simp [resolve, lookup, hfind, hobject, hquery, Command.entityIndex_nil hresults, Bind.bind,
    Except.bind]

theorem resolve_query_several (hfind : s.find? var = some (.object id))
    (hobject : s.object id = .command c) (hquery : c.isQuery = true)
    (hresults : 1 < c.results.length) : s.resolve var none = .error (.multipleEntities var) := by
  simp [resolve, lookup, hfind, hobject, hquery, Command.entityIndex_several hresults, Bind.bind,
    Except.bind]

/-- What asks for input has found nothing. -/
theorem Found.results_nil {a : RecommendedAction} (hs : s.Found) (hobject : s.object id = .command c)
    (hasks : c.recommend? = some a) : c.results = [] := by
  by_contra hresults
  have hcount : (s.object id).resultCount ≠ 0 := by
    rw [hobject]
    exact fun hzero => hresults (List.length_eq_zero_iff.mp hzero)
  obtain ⟨d, hd, -, hnothing⟩ := hs id hcount
  obtain rfl : d = c := TaskObject.command.inj (hd.symm.trans hobject)
  simp [hasks] at hnothing

end State

namespace Executor

variable {x : Executor} {v text : String} {s : State} {id : Nat} {c : Command}
  {a : RecommendedAction}

/-- An answer is refused where its variable means nothing. -/
theorem execute_refused {schema : CommandSchema} {e : ExecError}
    (hrewriter : x.rewriter = .ofSugars Sugar.defaults) (h : x.Answers v schema s text a)
    (hfind : s.find? v = some (.object id)) (hobject : s.object id = .command c)
    (hrefused : ∀ (u : State) followed, u.find? v = some (.object id) →
      u.object id = .command { c with followed } → u.resolve v none = .error e) (turn : Nat) :
    (x.execute turn text s).1 = .error e := by
  obtain ⟨nameSpan, fieldSpan, span, value, attr, written, w, followed, hprepare, heval, -⟩ :=
    h.gives hrewriter
  have hclassify := Exec.classify_assign x.options.multiTargetPolicy turn v attr nameSpan fieldSpan
    span heval
  generalize hu : (if followed then w.followRecommendation else w) = u
  have hcall : x.call? turn text s = some (.on v turn (.assignment [⟨attr, none, written⟩]), u) := by
    simp only [call?, hprepare, classify, hclassify, hu]
  obtain ⟨-, hbindings, -, -⟩ := call?_cases hcall
  have hbound : u.find? v = some (.object id) := by rw [State.find?, hbindings]; exact hfind
  obtain ⟨told, hu⟩ : ∃ told, u.object id = .command { c with followed := told } := by
    obtain hsame | ⟨action, hnotified⟩ :=
      (call?_objects hcall).2.2 id (State.lt_of_object_command hobject)
    · exact ⟨c.followed, hsame.trans hobject⟩
    · exact ⟨c.followed ++ [action], by rw [hnotified, hobject]; rfl⟩
  have hresolve := hrefused u told hbound hu
  rw [execute_of_call hcall]
  simp only [Call.on, Exec.runKind, Exec.applyUpdates, hresolve]

/-- A query that asks for input cannot be answered. In every state in which a variable is bound to
such a query, the turn that gives what is asked for is refused, because the query has no result to
write to or has several, and whatever is done afterwards the query asks for the same. In the states
of a session it is always the former, for what asks for input has found nothing. -/
theorem query_keeps_asking (hrewriter : x.rewriter = .ofSugars Sugar.defaults)
    (hfind : s.find? v = some (.object id)) (hobject : s.object id = .command c)
    (hquery : c.isQuery = true) (hasks : c.recommend? = some a)
    (h : x.Answers v c.schema s text a) (turn : Nat) :
    (c.results = [] → (x.execute turn text s).1 = .error (.noEntity v)) ∧
      (1 < c.results.length → (x.execute turn text s).1 = .error (.multipleEntities v)) ∧
      (∀ context before, s = ((Session.start context).run x before).state → c.results = []) ∧
      ∀ steps, let t := (Session.run x ⟨(x.execute turn text s).2, []⟩ steps).state
        t.HoldsTask id c ∧ (t.object id).recommend? = some a := by
  refine ⟨fun hresults => ?_, fun hresults => ?_, fun context before hreached => ?_,
    fun steps => ?_⟩
  · exact execute_refused hrewriter h hfind hobject
      (fun u told hbound hu => State.resolve_query_nil hbound hu hquery hresults) turn
  · exact execute_refused hrewriter h hfind hobject
      (fun u told hbound hu => State.resolve_query_several hbound hu hquery hresults) turn
  · have hturn : ∀ index text s, State.Found s → (x.execute index text s).2.Found :=
      fun index text s hs => found_execute x index text hs
    have hfound := Session.state_run hturn (State.found_new context) before
    exact State.Found.results_nil (hreached ▸ hfound) hobject hasks
  · have hturn : ∀ index text s, State.HoldsTask s id c →
        (x.execute index text s).2.HoldsTask id c :=
      fun index text s hs => (State.HoldsTask.steps hquery).execute x index text hs
    have hafter := hturn turn text s (.of_object hobject)
    have hholds := Session.state_run hturn hafter steps
    exact ⟨hholds, hholds.recommend?.trans hasks⟩

/-- A search for hotels that needs a city. -/
theorem query_keeps_asking_hotels :
    let schema : CommandSchema :=
      ⟨"search_hotels", .query "Hotel", [⟨"city", .str, true, [], false⟩], [], false, none⟩
    let x : Executor := ⟨.ofSchemas [schema], Sugar.defaults, .defaults⟩
    let s : State := ⟨[.command (.ofSchema schema)], [("x0", .object 0)], .empty, [], none⟩
    let ended := x.execute 1 "x0.city = \"Paris\"" s
    ended.1 = .error (.noEntity "x0") ∧ ∀ steps,
      ((Session.run x ⟨ended.2, []⟩ steps).state.object 0).recommend? = some (.askValue "city") := by
  intro schema x s ended
  have hanswers : x.Answers "x0" schema s "x0.city = \"Paris\"" (.askValue "city") :=
    ⟨⟨0, 2⟩, ⟨0, 7⟩, ⟨0, 17⟩, .str "Paris" ⟨10, 17⟩, .str "Paris", s, by decide +kernel,
      by rw [Exec.eval], rfl, ⟨"city", .str, true, [], false⟩, List.mem_cons_self, rfl, rfl⟩
  have hfind : s.find? "x0" = some (.object 0) := rfl
  have hobject : s.object 0 = .command (.ofSchema schema) := rfl
  obtain ⟨hnil, -, -, hafter⟩ := query_keeps_asking rfl hfind hobject rfl rfl hanswers 1
  exact ⟨hnil rfl, fun steps => (hafter steps).2⟩

/-- Searches that ask for a city and for a confirmation, and refuse both: their slot stays empty
and they stay unconfirmed. -/
theorem query_refuses_answer :
    let byCity : CommandSchema :=
      ⟨"search_hotels", .query "Hotel", [⟨"city", .str, true, [], false⟩], [], false, none⟩
    let all : CommandSchema := ⟨"list_hotels", .query "Hotel", [], [], true, none⟩
    let hotels : AppContext := ⟨[("Hotel", [⟨"Hotel", [("city", .str "Paris")]⟩])]⟩
    let x : Executor := ⟨.ofSchemas [byCity, all], Sugar.defaults, .defaults⟩
    let city := x.execute 0 "search_hotels()" (.new hotels)
    let given := x.execute 1 "x0.city = \"Paris\"" city.2
    let listed := x.execute 0 "list_hotels()" (.new hotels)
    let confirmed := x.execute 1 "confirm(x0)" listed.2
    city.1.toOption = some (.recommended 0 (.askValue "city")) ∧
      given.1 = .error (.noEntity "x0") ∧
      (given.2.command? "x0").map Command.values = some [.none] ∧
      listed.1.toOption = some (.recommended 0 .askConfirmation) ∧
      confirmed.1 = .error (.noEntity "x0") ∧
      (confirmed.2.command? "x0").map Command.confirmed = some false := by
  decide +kernel

end Executor

end TaskDialogue
