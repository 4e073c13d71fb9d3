import TaskDialogue.Proofs.Conversation.Inputs

/-!
# Replaying a conversation

The transcript of a conversation is a complete account of it. Executed from the same start
by an executor that stops at the first failure, its program lines all succeed, give the
results that the conversation recorded, and end in the conversation's state. Turns that
failed are in the outcomes only. What the outcomes say is what the executor answers to their
lines, if each line that fails is undone before the next one.
-/
namespace TaskDialogue

/-- A program turn as an executor takes it. -/
def ProgramTurn.line (t : ProgramTurn) : Nat × String := (t.index, t.expression)

def TurnOutcome.line (o : TurnOutcome) : Nat × String := (o.index, o.expression)

/-- A line with its result, when it succeeded. -/
def TurnOutcome.success? (o : TurnOutcome) : Option ((Nat × String) × ActionResult) :=
  match o.outcome with
  | .ok result => some ((o.index, o.expression), result)
  | .error _ => none

namespace Executor

/-- Lines that all succeed are followed by the lines after them. -/
theorem executeAll_append {x : Executor} {ls ms : List (Nat × String)} {s t : State}
    {results : List ActionResult} (h : x.executeAll ls s = (.ok results, t)) :
    x.executeAll (ls ++ ms) s =
      ((x.executeAll ms t).1.map (results ++ ·), (x.executeAll ms t).2) := by
  induction ls generalizing s results with
  | nil =>
    simp only [executeAll, Prod.mk.injEq, Except.ok.injEq] at h
    obtain ⟨rfl, rfl⟩ := h
    rcases hms : x.executeAll ms s with ⟨_ | _, _⟩ <;> simp [hms, Except.map]
  | cons line ls ih =>
    obtain ⟨turn, text⟩ := line
    simp only [executeAll] at h
    split at h
    · simp at h
    · next result s' hline =>
      split at h
      · simp at h
      · next rest s'' hrest =>
        simp only [Prod.mk.injEq, Except.ok.injEq] at h
        obtain ⟨rfl, rfl⟩ := h
        simp only [List.cons_append, executeAll, hline, ih hrest]
        rcases x.executeAll ms s'' with ⟨_ | _, _⟩ <;> simp [Except.map]

theorem executeAll_concat {x : Executor} {ls : List (Nat × String)} {s t u : State}
    {results : List ActionResult} {turn : Nat} {text : String} {result : ActionResult}
    (h : x.executeAll ls s = (.ok results, t)) (hline : x.execute turn text t = (.ok result, u)) :
    x.executeAll (ls ++ [(turn, text)]) s = (.ok (results ++ [result]), u) := by
  rw [executeAll_append h]
  simp [executeAll, hline, Except.map]

/-- Execute a line, and undo it if it fails. -/
def tryLine (x : Executor) (line : Nat × String) (s : State) :
    Except ExecError ActionResult × State :=
  match x.execute line.1 line.2 s with
  | (.error e, _) => (.error e, s)
  | (.ok result, t) => (.ok result, t)

/-- Try lines in order, also past those that fail: what each of them answers, and the state in
the end. -/
def tryAll (x : Executor) : List (Nat × String) → State →
    List (Except ExecError ActionResult) × State
  | [], s => ([], s)
  | line :: rest, s =>
    let (answer, t) := x.tryLine line s
    let (answers, u) := x.tryAll rest t
    (answer :: answers, u)

theorem tryAll_concat (x : Executor) (lines : List (Nat × String)) (line : Nat × String)
    (s : State) :
    let (answers, t) := x.tryAll lines s
    x.tryAll (lines ++ [line]) s = (answers ++ [(x.tryLine line t).1], (x.tryLine line t).2) := by
  induction lines generalizing s with
  | nil => rfl
  | cons first lines ih => simp only [List.cons_append, tryAll, ih]

/-- Of lines that all succeed the first does, and the others do from where it ends. -/
theorem executeAll_cons_ok {x : Executor} {lines : List (Nat × String)} {s t : State}
    {results : List ActionResult} {turn : Nat} {text : String}
    (h : x.executeAll ((turn, text) :: lines) s = (.ok results, t)) :
    ∃ result rest, (x.execute turn text s).1 = .ok result ∧
      x.executeAll lines (x.execute turn text s).2 = (.ok rest, t) ∧ results = result :: rest := by
  simp only [executeAll] at h
  split at h
  · simp at h
  · next heq =>
    split at h
    · simp at h
    · next heq' =>
      simp only [Prod.mk.injEq, Except.ok.injEq] at h
      rw [heq]
      exact ⟨_, _, rfl, by rw [heq', h.2], h.1.symm⟩

/-- The lines after the first, from where it ends. -/
theorem executeAll_cons {x : Executor} {lines : List (Nat × String)} {s t : State}
    {results : List ActionResult} {turn : Nat} {text : String}
    (h : x.executeAll ((turn, text) :: lines) s = (.ok results, t)) :
    ∃ rest, x.executeAll lines (x.execute turn text s).2 = (.ok rest, t) := by
  obtain ⟨_, rest, -, hrest, -⟩ := executeAll_cons_ok h
  exact ⟨rest, hrest⟩

/-- Lines that all succeed may be cut anywhere. -/
theorem executeAll_append_ok {x : Executor} {ls ms : List (Nat × String)} {s t : State}
    {results : List ActionResult} (h : x.executeAll (ls ++ ms) s = (.ok results, t)) :
    ∃ first last u, x.executeAll ls s = (.ok first, u) ∧ x.executeAll ms u = (.ok last, t) ∧
      results = first ++ last ∧ first.length = ls.length := by
  induction ls generalizing s results with
  | nil => exact ⟨[], results, s, rfl, h, rfl, rfl⟩
  | cons line ls ih =>
    obtain ⟨turn, text⟩ := line
    obtain ⟨result, rest, hok, hrest, rfl⟩ := executeAll_cons_ok h
    obtain ⟨first, last, u, hfirst, hlast, rfl, hlength⟩ := ih hrest
    refine ⟨result :: first, last, u, ?_, hlast, rfl, by simp [hlength]⟩
    have hline : x.execute turn text s = (.ok result, (x.execute turn text s).2) := by rw [← hok]
    rw [executeAll, hline]
    simp only [hfirst]

end Executor

namespace Conversation

/-- The program lines of the transcript. -/
def lines (c : Conversation) : List (Nat × String) := c.transcript.programTurns.map ProgramTurn.line

/-- The lines that succeeded, with their results, as the outcomes have them. -/
def successes (c : Conversation) : List ((Nat × String) × ActionResult) :=
  c.outcomes.filterMap TurnOutcome.success?

theorem attempt_ok {c : Conversation} {turn : Turn} {line : ProgramTurn} {result : ActionResult}
    {s : State} (h : c.executor.execute line.index line.expression c.state = (.ok result, s)) :
    c.attempt turn line = (.ok result, { c with
      state := s
      turns := c.turns ++ [turn]
      outcomes := c.outcomes ++ [⟨line.index, line.expression, turn.isAuto, .ok result⟩] }) := by
  simp only [attempt, h]

theorem attempt_error {c : Conversation} {turn : Turn} {line : ProgramTurn} {e : ExecError}
    {s : State} (h : c.executor.execute line.index line.expression c.state = (.error e, s)) :
    c.attempt turn line = (.error e, { c with
      outcomes := c.outcomes ++ [⟨line.index, line.expression, turn.isAuto, .error e⟩] }) := by
  simp only [attempt, h]

/-- An attempt is a line that is tried in the state of the conversation. -/
theorem tryLine_attempt (c : Conversation) (turn : Turn) (line : ProgramTurn) :
    c.executor.tryLine line.line c.state =
      ((c.attempt turn line).1, (c.attempt turn line).2.state) := by
  simp only [attempt, Executor.tryLine, ProgramTurn.line]
  split <;> simp only [*]

theorem outcomes_attempt (c : Conversation) (turn : Turn) (line : ProgramTurn) :
    (c.attempt turn line).2.outcomes =
      c.outcomes ++ [⟨line.index, line.expression, turn.isAuto, (c.attempt turn line).1⟩] := by
  simp only [attempt]
  split <;> rfl

theorem successes_attempt (c : Conversation) (turn : Turn) (line : ProgramTurn) :
    (c.attempt turn line).2.successes =
      c.successes ++ ((c.attempt turn line).1.toOption.map (line.line, ·)).toList := by
  simp only [successes, outcomes_attempt, List.filterMap_append]
  cases (c.attempt turn line).1 <;> rfl

theorem lines_say {c : Conversation} {turn : Turn} (h : turn.program? = none) :
    (c.say turn).lines = c.lines := by
  simp [lines, transcript, Transcript.programTurns, say, h]

theorem lines_concat {c d : Conversation} {turn : Turn} {line : ProgramTurn}
    (h : turn.program? = some line) (hd : d.turns = c.turns ++ [turn]) :
    d.lines = c.lines ++ [line.line] := by
  simp [lines, transcript, Transcript.programTurns, hd, h]

theorem lines_attempt {c : Conversation} {turn : Turn} {line : ProgramTurn} (h : turn.program? = some line) :
    (c.attempt turn line).2.lines = c.lines ∨
      (c.attempt turn line).2.lines = c.lines ++ [line.line] := by
  rcases hline : c.executor.execute line.index line.expression c.state with ⟨e | result, s⟩
  · rw [attempt_error hline]
    exact .inl rfl
  · exact .inr (lines_concat h (by rw [attempt_ok hline]))

/-- The transcript of a conversation takes an executor from a first state to where the
conversation is, line by line as the outcomes say, and so do the lines that were tried. -/
structure Replays (x : Executor) (first : State) (c : Conversation) : Prop where
  executor : c.executor = x
  lines : c.lines = c.successes.map (·.1)
  run : x.executeAll c.lines first = (.ok (c.successes.map (·.2)), c.state)
  tried : x.tryAll (c.outcomes.map TurnOutcome.line) first = (c.outcomes.map (·.outcome), c.state)

variable {x : Executor} {first : State} {c : Conversation}

theorem Replays.say (h : Replays x first c) {turn : Turn} (hturn : turn.program? = none) :
    Replays x first (c.say turn) where
  executor := h.executor
  lines := by rw [lines_say hturn]; exact h.lines
  run := by rw [lines_say hturn]; exact h.run
  tried := h.tried

theorem Replays.tried_attempt (h : Replays x first c) (turn : Turn) (line : ProgramTurn) :
    let d := (c.attempt turn line).2
    x.tryAll (d.outcomes.map TurnOutcome.line) first = (d.outcomes.map (·.outcome), d.state) := by
  have hline := tryLine_attempt c turn line
  rw [h.executor] at hline
  have hall := x.tryAll_concat (c.outcomes.map TurnOutcome.line) line.line first
  rw [h.tried] at hall
  dsimp only at hall ⊢
  rw [outcomes_attempt, List.map_append, List.map_append]
  exact hall.trans (by rw [hline]; rfl)

theorem Replays.attempt (h : Replays x first c) {turn : Turn} {line : ProgramTurn}
    (hturn : turn.program? = some line) : Replays x first (c.attempt turn line).2 := by
  have hs := successes_attempt c turn line
  rcases hline : c.executor.execute line.index line.expression c.state with ⟨e | result, s⟩
  · have hstate : (c.attempt turn line).2.state = c.state := by rw [attempt_error hline]
    have hl : (c.attempt turn line).2.lines = c.lines := by rw [attempt_error hline]; rfl
    rw [attempt_error hline] at hs
    refine ⟨(attempt_executor ..).trans h.executor, ?_, ?_, h.tried_attempt turn line⟩
    · rw [hl, attempt_error hline, hs, h.lines]
      simp [Except.toOption]
    · rw [hl, hstate, attempt_error hline, hs, h.run]
      simp [Except.toOption]
  · have hstate : (c.attempt turn line).2.state = s := by rw [attempt_ok hline]
    have hl : (c.attempt turn line).2.lines = c.lines ++ [line.line] :=
      lines_concat hturn (by rw [attempt_ok hline])
    have hsucc : (c.attempt turn line).2.successes = c.successes ++ [(line.line, result)] := by
      rw [hs, attempt_ok hline]
      rfl
    refine ⟨(attempt_executor ..).trans h.executor, ?_, ?_, h.tried_attempt turn line⟩
    · rw [hl, hsucc, h.lines, List.map_append]
      rfl
    · rw [hl, hsucc, hstate, List.map_append]
      rw [h.executor] at hline
      exact Executor.executeAll_concat h.run hline

theorem Replays.feedAll (h : Replays x first c) (inputs : List Input) :
    Replays x first (c.feedAll inputs) :=
  feedAll_preserves (fun _ _ hturn hc => hc.say hturn) (fun _ _ _ hturn hc => hc.attempt hturn)
    inputs h

theorem replays_start (x : Executor) (first : State) (autoFollowUp : Bool) :
    Replays x first (start x first autoFollowUp) := ⟨rfl, rfl, rfl, rfl⟩

/-- The turn that is derived from the result of a turn, if the conversation adds such turns and
this is none of them. -/
def derived? (c : Conversation) (turn : Turn) (result : ActionResult) : Option Turn :=
  if c.autoFollowUp && !turn.isAuto then followUp? result c.nextIndex else none

/-- A follow-up turn has a program line, and it is put in by the application. -/
theorem program?_followUp? {result : ActionResult} {next : Nat} {turn : Turn}
    (h : followUp? result next = some turn) :
    (∃ line, turn.program? = some line) ∧ turn.isAuto = true := by
  unfold followUp? at h
  split at h <;> simp only [Option.some.injEq, reduceCtorEq] at h <;> exact h ▸ ⟨⟨_, rfl⟩, rfl⟩

/-- To add a follow-up turn is to push it. Nothing is derived from it in turn. -/
theorem addFollowUp_eq (c : Conversation) (result : ActionResult) :
    c.addFollowUp result = (followUp? result c.nextIndex).elim c fun next => (c.push next).2 := by
  rw [addFollowUp]
  cases hnext : followUp? result c.nextIndex with
  | none => rfl
  | some next =>
    obtain ⟨⟨line, hline⟩, hauto⟩ := program?_followUp? hnext
    rw [Option.elim_some, push_of_program? hline, hauto]
    simp only [hline, Bool.not_true, Bool.and_false]
    cases (c.attempt next line).1 <;> rfl

/-- A pushed line that fails is an outcome, and nothing else. -/
theorem push_of_error {turn : Turn} {line : ProgramTurn} {e : ExecError} {s : State}
    (h : turn.program? = some line)
    (hline : c.executor.execute line.index line.expression c.state = (.error e, s)) :
    c.push turn = (some (.error e), { c with
      outcomes := c.outcomes ++ [⟨line.index, line.expression, turn.isAuto, .error e⟩] }) := by
  rw [push_of_program? h, attempt_error hline]

/-- A pushed line that succeeds is kept with the state in which it ends, and after it the turn
that is derived from its result is pushed. -/
theorem push_of_ok {turn : Turn} {line : ProgramTurn} {result : ActionResult} {s : State}
    (h : turn.program? = some line)
    (hline : c.executor.execute line.index line.expression c.state = (.ok result, s)) :
    let kept : Conversation := { c with
      state := s
      turns := c.turns ++ [turn]
      outcomes := c.outcomes ++ [⟨line.index, line.expression, turn.isAuto, .ok result⟩] }
    c.push turn = (some (.ok result),
      (kept.derived? turn result).elim kept fun next => (kept.push next).2) := by
  rw [push_of_program? h, attempt_ok hline]
  simp only [derived?, addFollowUp_eq]
  split <;> rfl

/-- Whatever is put into a conversation, its transcript holds the lines that succeeded, in
order and nothing else; executed from the same state they all succeed again, with the same
results, and end in the same state. The outcomes are what the executor answers to all lines
in order, if those that fail are undone. Every input is to push its turns. A turn without a line
is only added. A pushed line answers what the executor does in the state of the conversation. If
it fails then this is recorded, and the state and the turns are as before; otherwise it is
recorded, and the turn and the state in which it ends are kept, before a turn that is derived from
it is pushed. -/
theorem executeAll_transcript (x : Executor) (first : State) (autoFollowUp : Bool)
    (inputs : List Input) :
    let c := (start x first autoFollowUp).feedAll inputs
    c.lines = c.successes.map (·.1) ∧
      x.executeAll c.lines first = (.ok (c.successes.map (·.2)), c.state) ∧
      x.tryAll (c.outcomes.map TurnOutcome.line) first = (c.outcomes.map (·.outcome), c.state) ∧
      (∀ (d : Conversation) (input : Input),
        d.feed input = (input.turns d.nextIndex).foldl (fun d turn => (d.push turn).2) d) ∧
      (∀ (d : Conversation) turn, turn.program? = none →
        d.push turn = (none, { d with turns := d.turns ++ [turn] })) ∧
      ∀ (d : Conversation) turn line, turn.program? = some line →
        let answer := (d.executor.execute line.index line.expression d.state).1
        let after := (d.executor.execute line.index line.expression d.state).2
        let outcomes := d.outcomes ++ [⟨line.index, line.expression, turn.isAuto, answer⟩]
        (d.push turn).1 = some answer ∧
          (∀ e, answer = .error e → (d.push turn).2 = { d with outcomes }) ∧
          ∀ result, answer = .ok result →
            let kept := { d with state := after, turns := d.turns ++ [turn], outcomes }
            (d.push turn).2 =
              (kept.derived? turn result).elim kept fun next => (kept.push next).2 := by
  have h := (replays_start x first autoFollowUp).feedAll inputs
  refine ⟨h.lines, h.run, h.tried, feed_eq_foldl, fun d turn hturn => by rw [push, hturn]; rfl,
    fun d turn line hturn => ?_⟩
  rcases hline : d.executor.execute line.index line.expression d.state with ⟨e | result, s⟩
  · have hpush := push_of_error hturn hline
    refine ⟨by rw [hpush], fun e' he => ?_, fun result hok => ?_⟩
    · rw [hpush, Except.error.inj he]
    · cases hok
  · have hpush := push_of_ok hturn hline
    refine ⟨by rw [hpush], fun e he => ?_, fun result' hok => ?_⟩
    · cases he
    · rw [hpush, Except.ok.inj hok]

/-- An alarm that asks for its time, the hint that is derived from this, and a timer, which is not
known; and then an alarm and a timer once more. -/
theorem executeAll_transcript_alarms :
    let c := (start alarms (.new .empty) true).feedAll
      [.program "create_alarm()", .program "create_timer()"]
    let asking : Turn := .program ⟨2, "create_alarm()"⟩
    let hint : Turn := .autoTransient ⟨3, "hint(\"ask for value: Ask for time\", ref=x2)"⟩
    let failing : Turn := .program ⟨2, "create_timer()"⟩
    (c.outcomes.map (fun o => (o.index, o.auto, o.failed)) =
        [(0, false, false), (1, true, false), (2, false, true)] ∧ c.lines.map (·.1) = [0, 1]) ∧
      alarms.executeAll c.lines (.new .empty) = (.ok (c.successes.map (·.2)), c.state) ∧
      (∃ kept : Conversation, kept.turns = c.turns ++ [asking] ∧
        kept.state = (c.executor.execute 2 "create_alarm()" c.state).2 ∧
        (c.push asking).2 = (kept.push hint).2) ∧
      ∃ e, (c.push failing).2 =
        { c with outcomes := c.outcomes ++ [⟨2, "create_timer()", false, .error e⟩] } := by
  intro c asking hint failing
  obtain ⟨houtcomes, hasks, hderived, hfails⟩ :
      (c.outcomes.map (fun o => (o.index, o.auto, o.failed)) =
        [(0, false, false), (1, true, false), (2, false, true)] ∧ c.lines.map (·.1) = [0, 1]) ∧
      (c.executor.execute 2 "create_alarm()" c.state).1.toOption =
        some (.recommended 2 (.askValue "time")) ∧
      derived? { c with turns := c.turns ++ [asking] } asking
        (.recommended 2 (.askValue "time")) = some hint ∧
      (c.executor.execute 2 "create_timer()" c.state).1.toOption = none := by
    decide +kernel
  obtain ⟨-, hrun, -, -, -, hpush⟩ := executeAll_transcript alarms (.new .empty) true
    [.program "create_alarm()", .program "create_timer()"]
  change alarms.executeAll c.lines _ = (.ok (c.successes.map (·.2)), c.state) at hrun
  clear_value c
  obtain ⟨-, -, hkept⟩ := hpush c asking _ rfl
  obtain ⟨-, hundone, -⟩ := hpush c failing _ rfl
  refine ⟨houtcomes, hrun, ?_, ?_⟩
  · cases hanswer : (c.executor.execute 2 "create_alarm()" c.state).1 with
    | error e => simp [hanswer, Except.toOption] at hasks
    | ok result =>
      obtain rfl : result = _ := by simpa [hanswer, Except.toOption] using hasks
      exact ⟨_, rfl, rfl, (hkept _ hanswer).trans (congrArg (Option.elim · _ _) hderived)⟩
  · cases hanswer : (c.executor.execute 2 "create_timer()" c.state).1 with
    | error e => exact ⟨e, (hundone e hanswer).trans (by rw [hanswer]; rfl)⟩
    | ok result => simp [hanswer, Except.toOption] at hfails

end Conversation

end TaskDialogue
