import TaskDialogue.Transcript.Conversation

/-!
# What is put into a conversation

A caller adds turns one at a time, as expressions, as words of the user and the agent,
or as a whole transcript. Follow-up turns come on top of these, so a single input may
execute several turns. Every input is made of two elementary steps: to say a turn that
is not executed, and to attempt the line of one that is. What both of them preserve is
preserved by every conversation.
-/
namespace TaskDialogue.Conversation

/-- What a caller adds. -/
inductive Input where
  | turn (turn : Turn)
  | program (expression : String)
  | user (query : String)
  | agent (response : String)
  | transcript (turns : List Turn)

/-- The conversation after an input. -/
def feed (c : Conversation) : Input → Conversation
  | .turn turn => (c.push turn).2
  | .program expression => (c.pushProgram expression).2
  | .user query => c.say (.user query)
  | .agent response => c.say (.agent response)
  | .transcript turns => c.run turns

/-- The turns of an input, where an expression has the next index. -/
def Input.turns (next : Nat) : Input → List Turn
  | .turn t => [t]
  | .program expression => [.program ⟨next, expression⟩]
  | .user query => [.user query]
  | .agent response => [.agent response]
  | .transcript turns => turns

/-- The conversation after inputs in order. -/
def feedAll (c : Conversation) (inputs : List Input) : Conversation := inputs.foldl feed c

@[simp] theorem attempt_executor (c : Conversation) (turn : Turn) (line : ProgramTurn) :
    (c.attempt turn line).2.executor = c.executor := by
  simp only [attempt]
  split <;> rfl

@[simp] theorem attempt_autoFollowUp (c : Conversation) (turn : Turn) (line : ProgramTurn) :
    (c.attempt turn line).2.autoFollowUp = c.autoFollowUp := by
  simp only [attempt]
  split <;> rfl

/-- A turn with a program line is attempted, and the follow-up of its result is added when
it succeeds and was not put in by the application. -/
theorem push_of_program? {c : Conversation} {turn : Turn} {line : ProgramTurn}
    (h : turn.program? = some line) :
    c.push turn =
      (some (c.attempt turn line).1,
        match (c.attempt turn line).1 with
        | .error _ => (c.attempt turn line).2
        | .ok result =>
          if c.autoFollowUp && !turn.isAuto then (c.attempt turn line).2.addFollowUp result
          else (c.attempt turn line).2) := by
  rw [← attempt_autoFollowUp c turn line]
  simp only [push, h]
  split <;> simp only [*]

/-- An expression is a program turn with the next index. -/
theorem pushProgram_eq (c : Conversation) (expression : String) :
    c.push (.program ⟨c.nextIndex, expression⟩) =
      (some (c.pushProgram expression).1, (c.pushProgram expression).2) := by
  simp only [push, pushProgram, Turn.program?, Turn.isAuto, Bool.not_false, Bool.and_true]
  split <;> rfl

/-- Every input is to push its turns in order. -/
theorem feed_eq_foldl (c : Conversation) (input : Input) :
    c.feed input = (input.turns c.nextIndex).foldl (fun c turn => (c.push turn).2) c := by
  cases input with
  | program expression =>
    change _ = (c.push (.program ⟨c.nextIndex, expression⟩)).2
    rw [pushProgram_eq]
    rfl
  | turn _ | user _ | agent _ | transcript _ => rfl

section

variable {P : Conversation → Prop}

theorem addFollowUp_preserves
    (attempt : ∀ c turn line, turn.program? = some line → P c → P (c.attempt turn line).2)
    {c : Conversation} (result : ActionResult) (hc : P c) : P (c.addFollowUp result) := by
  simp only [addFollowUp]
  split
  · exact hc
  · next turn _ =>
    cases hline : turn.program? with
    | none => exact hc
    | some line => exact attempt c turn line hline hc

theorem push_preserves (say : ∀ c turn, turn.program? = none → P c → P (c.say turn))
    (attempt : ∀ c turn line, turn.program? = some line → P c → P (c.attempt turn line).2)
    {c : Conversation} (turn : Turn) (hc : P c) : P (c.push turn).2 := by
  cases hline : turn.program? with
  | none =>
    simp only [push, hline]
    exact say c turn hline hc
  | some line =>
    have ha := attempt c turn line hline hc
    rw [push_of_program? hline]
    cases (c.attempt turn line).1 with
    | error e => exact ha
    | ok result =>
      dsimp only
      split
      · exact addFollowUp_preserves attempt result ha
      · exact ha

theorem run_preserves (say : ∀ c turn, turn.program? = none → P c → P (c.say turn))
    (attempt : ∀ c turn line, turn.program? = some line → P c → P (c.attempt turn line).2)
    {c : Conversation} (turns : List Turn) (hc : P c) : P (c.run turns) := by
  induction turns generalizing c with
  | nil => exact hc
  | cons turn turns ih => exact ih (push_preserves say attempt turn hc)

theorem feed_preserves (say : ∀ c turn, turn.program? = none → P c → P (c.say turn))
    (attempt : ∀ c turn line, turn.program? = some line → P c → P (c.attempt turn line).2)
    {c : Conversation} (input : Input) (hc : P c) : P (c.feed input) := by
  cases input with
  | turn turn => exact push_preserves say attempt turn hc
  | program expression =>
    have h := push_preserves say attempt (.program ⟨c.nextIndex, expression⟩) hc
    rwa [pushProgram_eq] at h
  | user query => exact say c _ rfl hc
  | agent response => exact say c _ rfl hc
  | transcript turns => exact run_preserves say attempt turns hc

/-- What the elementary steps preserve holds after any inputs. -/
theorem feedAll_preserves (say : ∀ c turn, turn.program? = none → P c → P (c.say turn))
    (attempt : ∀ c turn line, turn.program? = some line → P c → P (c.attempt turn line).2)
    {c : Conversation} (inputs : List Input) (hc : P c) : P (c.feedAll inputs) := by
  induction inputs generalizing c with
  | nil => exact hc
  | cons input inputs ih => exact ih (feed_preserves say attempt input hc)

end

/-- A domain with one task, which needs a time. -/
def alarms : Executor :=
  ⟨.ofSchemas [⟨"create_alarm", .intent, [⟨"time", .str, true, [], false⟩], [], false, none⟩],
    Sugar.defaults, .defaults⟩

end TaskDialogue.Conversation
