import TaskDialogue.Cli.Run
import TaskDialogue.Proofs.Turn.Shape

/-!
# What a check tells about a run

A check reads the text of each program line and rewrites its program, and a run goes on from there.
So a line that a check reports is one that a run fails on, with the same error and before anything
happens. How many statements a text has is counted only when it is classified: a text of none or
of several passes the check and fails the run, and no other line sets the two apart.
-/
namespace TaskDialogue

/-- What is wrong with the number of statements of a program. -/
def Program.miscount? (p : Program) : Option SyntaxError :=
  match p.body with
  | [] => some .noExpression
  | [_] => none
  | body => some (.severalStatements body.length)

theorem Program.miscount?_eq_none {p : Program} : p.miscount? = none ↔ p.body.length = 1 := by
  obtain ⟨body⟩ := p
  match body with
  | [] => simp [miscount?]
  | [_] => simp [miscount?]
  | _ :: _ :: _ => simp [miscount?]

theorem ExecError.kind_eq_parse {e : ExecError} : e.kind = .parse ↔ ∃ fault, e = .parse fault := by
  cases e <;> simp [kind]

namespace Exec

variable {registry : Registry} {policy : MultiTargetPolicy} {turn : Nat} {s t : State}
  {e : ExecError}

/-- A program whose statements are miscounted has no call, and nothing is evaluated. -/
theorem classify_of_miscount {p : Program} {fault : SyntaxError} (h : p.miscount? = some fault) :
    classify registry policy turn p s = (.error (.parse fault), s) := by
  obtain ⟨body⟩ := p
  match body with
  | [] => simp_all [Program.miscount?, classify]
  | [_] => simp [Program.miscount?] at h
  | _ :: _ :: _ => simp_all [Program.miscount?, classify]

/-- Nothing that a call does is an error of its text. -/
theorem kind_of_run {call : Call} {followed : Bool} (h : run call followed s = (.error e, t)) :
    e.kind ≠ .parse := by
  obtain ⟨hsemantic, -⟩ | ⟨_, _, -, hfinds⟩ := runKind_error h
  · exact hsemantic.kind.1
  · obtain ⟨_, _, -, -, -, rfl⟩ := hfinds.query
    nofun

end Exec

namespace Executor

/-- What is wrong with a text by itself, whatever the state that it is executed in. -/
def syntaxError? (x : Executor) (text : String) : Option SyntaxError :=
  match x.prepare text with
  | .error fault => some fault
  | .ok (p, _) => p.miscount?

/-- The execution of a text fails because of the text. -/
def Misreads (x : Executor) (turn : Nat) (text : String) (s : State) : Prop :=
  ∃ e, (x.execute turn text s).1 = .error e ∧ e.kind = .parse

/-- A text that can be read is a single statement. -/
def ReadsOne (x : Executor) (text : String) : Prop :=
  ∀ p followed, x.prepare text = .ok (p, followed) → p.body.length = 1

variable {x : Executor} {sugars : List Sugar} {turn : Nat} {text : String} {s t : State}

/-- A single statement that is executed never fails because of its text. -/
theorem kind_executeProgram {p : Program} {followed : Bool} {e : ExecError} (hp : p.WellFormed)
    (hone : p.miscount? = none) (h : x.executeProgram turn p followed s = (.error e, t)) :
    e.kind ≠ .parse := by
  obtain ⟨stmt, hbody⟩ := List.length_eq_one_iff.mp (Program.miscount?_eq_none.mp hone)
  unfold executeProgram at h
  split at h
  · next hclassify =>
    obtain ⟨⟨rfl⟩, rfl⟩ := Prod.mk.inj h
    exact (x.classifiable_of_wellFormed turn s hp).error stmt _ _ hbody hclassify
  · exact Exec.kind_of_run h

/-- Execution fails because of a text where something is wrong with it, and then the state is
what it was. -/
theorem execute_eq_parse_iff (hx : x.rewriter = .ofSugars sugars) {fault : SyntaxError} :
    x.execute turn text s = (.error (.parse fault), t) ↔ t = s ∧ x.syntaxError? text = some fault := by
  unfold execute syntaxError?
  cases hprepare : x.prepare text with
  | error e =>
    simp only [Prod.mk.injEq, Except.error.injEq, ExecError.parse.injEq, Option.some.injEq]
    exact ⟨fun h => ⟨h.2.symm, h.1⟩, fun h => ⟨h.2, h.1.symm⟩⟩
  | ok read =>
    obtain ⟨p, followed⟩ := read
    dsimp only
    cases hcount : p.miscount? with
    | some e =>
      have hfails : x.executeProgram turn p followed s = (.error (.parse e), s) := by
        simp only [executeProgram, classify, Exec.classify_of_miscount hcount]
      rw [hfails]
      simp only [Prod.mk.injEq, Except.error.injEq, ExecError.parse.injEq, Option.some.injEq]
      exact ⟨fun h => ⟨h.2.symm, h.1⟩, fun h => ⟨h.2, h.1.symm⟩⟩
    | none =>
      obtain ⟨_, q, hparse, rfl⟩ := prepare_ok hprepare
      have hwell : (x.rewriter.apply q).WellFormed :=
        hx ▸ Rewriter.wellFormed_apply sugars (Program.wellFormed_of_parse hparse)
      refine ⟨fun hfails => ?_, fun h => ?_⟩
      · exact absurd rfl (kind_executeProgram hwell hcount hfails)
      · cases h.2

theorem misreads_iff (hx : x.rewriter = .ofSugars sugars) :
    x.Misreads turn text s ↔ (x.syntaxError? text).isSome := by
  rw [Option.isSome_iff_exists]
  constructor
  · rintro ⟨e, he, hkind⟩
    obtain ⟨fault, rfl⟩ := ExecError.kind_eq_parse.mp hkind
    exact ⟨fault, ((execute_eq_parse_iff hx).mp (Prod.ext he rfl)).2⟩
  · rintro ⟨fault, hfault⟩
    exact ⟨.parse fault, by rw [(execute_eq_parse_iff hx).mpr ⟨rfl, hfault⟩], rfl⟩

end Executor

namespace Cli

variable {m : Type → Type} [Monad m]

/-- The lines that a check prints, each with whether the program line can be read. -/
def checkLines (c : Config) (transcript : Transcript) : List (String × Bool) :=
  transcript.programTurns.map (checkLine (executor c (.ofSchemas [])))

/-- A check prints a line on each program line, and it fails unless all can be read. -/
theorem checkTranscript_eq (locate : Locate m) (c : Config) (path : String) :
    checkTranscript locate c path = (do
      let transcript ← readTranscript locate c path
      let lines := checkLines c transcript
      return ⟨String.join (lines.map (·.1)),
        if lines.all (·.2) then none
        else some (.turnsUnparsed (lines.countP (! ·.2)) lines.length)⟩) := by
  unfold checkTranscript
  congr 1
  funext transcript
  dsimp only [checkLines]
  generalize transcript.programTurns.map (checkLine (executor c (.ofSchemas []))) = lines
  rw [← List.countP_eq_length_filter]
  by_cases hall : lines.all (·.2) = true
  · have hnone : lines.countP (! ·.2) = 0 := by simpa [List.countP_eq_zero] using hall
    simp [hall, hnone]
  · have hsome : 0 < lines.countP (! ·.2) := by simpa [List.countP_pos_iff] using hall
    simp [hall, hsome]

/-- What a check says of a line does not depend on the commands that there are. -/
theorem checkLine_snd (c : Config) (registry : Registry) (t : ProgramTurn) :
    (checkLine (executor c (.ofSchemas [])) t).2 =
      ((executor c registry).prepare t.expression).isOk := by
  have hprepare : (executor c (.ofSchemas [])).prepare t.expression =
      (executor c registry).prepare t.expression := rfl
  unfold checkLine
  rw [hprepare]
  cases (executor c registry).prepare t.expression <;> rfl

/-- A check and a run agree about a program line: it is reported as one that can be read exactly
when its execution does not fail because of its text. -/
def Agree (c : Config) (registry : Registry) (t : ProgramTurn) (s : State) : Prop :=
  (checkLine (executor c (.ofSchemas [])) t).2 = true ↔
    ¬ (executor c registry).Misreads t.index t.expression s

/-- What a check reports is wrong with the text. -/
theorem misreads_of_checkLine {c : Config} {registry : Registry} {t : ProgramTurn} {s : State}
    (h : (checkLine (executor c (.ofSchemas [])) t).2 = false) :
    (executor c registry).Misreads t.index t.expression s := by
  rw [Executor.misreads_iff (x := executor c registry) rfl]
  rw [checkLine_snd c registry] at h
  unfold Executor.syntaxError?
  cases hprepare : (executor c registry).prepare t.expression with
  | error fault => rfl
  | ok read => simp [hprepare, Except.isOk, Except.toBool] at h

theorem agree_iff_readsOne {c : Config} {registry : Registry} {t : ProgramTurn} {s : State} :
    Agree c registry t s ↔ (executor c registry).ReadsOne t.expression := by
  unfold Agree Executor.ReadsOne
  rw [Executor.misreads_iff (x := executor c registry) rfl, checkLine_snd c registry]
  unfold Executor.syntaxError?
  cases hprepare : (executor c registry).prepare t.expression with
  | error fault => simp [Except.isOk, Except.toBool]
  | ok read =>
    obtain ⟨p, followed⟩ := read
    simp only [Except.isOk, Except.toBool, true_iff, Bool.not_eq_true, Option.isSome_eq_false_iff,
      Option.isNone_iff_eq_none, Program.miscount?_eq_none, Except.ok.injEq, Prod.mk.injEq]
    exact ⟨fun hone _ _ ⟨hp, _⟩ => hp ▸ hone, fun h => h p followed ⟨rfl, rfl⟩⟩

/-- A check prints a line on each program line and fails unless it can read all of them. What it
cannot read fails the run because of the text as well, in every state, and whatever fails because
of its text leaves the state as it was. The two agree about a line, whichever commands there are,
exactly when a text that can be read is a single statement. -/
theorem checkTranscript_agrees_iff (locate : Locate m) (c : Config) (path : String)
    (registry : Registry) :
    (checkTranscript locate c path = do
      let transcript ← readTranscript locate c path
      let lines := checkLines c transcript
      return ⟨String.join (lines.map (·.1)),
        if lines.all (·.2) then none
        else some (.turnsUnparsed (lines.countP (! ·.2)) lines.length)⟩) ∧
      ∀ (t : ProgramTurn) (s : State),
        (Agree c registry t s ↔ (executor c registry).ReadsOne t.expression) ∧
          ((checkLine (executor c (.ofSchemas [])) t).2 = false →
            (executor c registry).Misreads t.index t.expression s) ∧
          ∀ fault u, (executor c registry).execute t.index t.expression s =
              (.error (.parse fault), u) ↔
            u = s ∧ (executor c registry).syntaxError? t.expression = some fault :=
  ⟨checkTranscript_eq locate c path, fun _ _ => ⟨agree_iff_readsOne, misreads_of_checkLine,
    fun _ _ => Executor.execute_eq_parse_iff (x := executor c registry) rfl⟩⟩

/-- A call that is not closed is reported, and fails in a state where nothing is bound. -/
theorem checkTranscript_agrees_unclosed :
    let t : ProgramTurn := ⟨3, "create_alarm(time="⟩
    (checkLine (executor .defaults (.ofSchemas [])) t).2 = false ∧
      (executor .defaults (.ofSchemas [])).Misreads t.index t.expression (.new .empty) := by
  intro t
  have hline : (checkLine (executor .defaults (.ofSchemas [])) t).2 = false := by decide +kernel
  have hagrees := (checkTranscript_agrees_iff (m := Id) (fun _ => .error .notFound) .defaults
    "alarms.transcript" (.ofSchemas [])).2 t (.new .empty)
  exact ⟨hline, hagrees.2.1 hline⟩

/-- Two statements in a line pass the check and fail the run. -/
theorem checkTranscript_severalStatements :
    ∃ transcript t, Transcript.parse "0 x0; x1" Config.defaults.executor.followMarker =
        .ok transcript ∧
      t ∈ transcript.programTurns ∧
      checkLine (executor .defaults (.ofSchemas [])) t = ("turn 0: ok\n", true) ∧
      ¬ Agree .defaults (.ofSchemas []) t (.new .empty) := by
  refine ⟨⟨[.program ⟨0, "x0; x1"⟩], "#y"⟩, ⟨0, "x0; x1"⟩, by decide +kernel, by decide,
    by decide +kernel, ?_⟩
  rw [agree_iff_readsOne]
  intro hone
  have hcount : ((executor .defaults (.ofSchemas [])).prepare "x0; x1").map
      (·.1.body.length) = .ok 2 := by decide +kernel
  cases hprepare : (executor .defaults (.ofSchemas [])).prepare "x0; x1" with
  | error e => simp [hprepare, Except.map] at hcount
  | ok read =>
    obtain ⟨p, followed⟩ := read
    have htwo : p.body.length = 2 := by simpa [hprepare, Except.map] using hcount
    have := hone p followed hprepare
    omega

end Cli

end TaskDialogue
