import TaskDialogue.Proofs.Syntax.Shape
import TaskDialogue.Proofs.Turn.Failure

/-!
# What classification can rely on

The program of a turn text is well formed, whichever sugars it was rewritten by. So the cases that
classification has to treat for other programs never come up: the target of an append is a field of
a variable, each target meets a value and each value a target, and no assignment is empty.
-/
namespace TaskDialogue

namespace Exec

variable {registry : Registry} {s t : State}

/-- How many writes there are in some groups. -/
def writeCount (groups : List (String × List AttributeUpdate)) : Nat :=
  (groups.flatMap (·.2)).length

theorem writeCount_addUpdate (var : String) (update : AttributeUpdate)
    (groups : List (String × List AttributeUpdate)) :
    writeCount (addUpdate var update groups) = writeCount groups + 1 := by
  induction groups with
  | nil => rfl
  | cons g rest ih =>
    simp only [writeCount] at ih
    simp only [addUpdate]
    split
    · simp only [writeCount, List.flatMap_cons, List.length_append, List.length_singleton]
      omega
    · simp only [writeCount, List.flatMap_cons, List.length_append, ih]
      omega

/-- Every pair of a target and a value is a write. -/
theorem writeCount_assignmentGroups {targets es : List Expr}
    {groups result : List (String × List AttributeUpdate)} (hlength : targets.length = es.length)
    (h : assignmentGroups registry targets es groups s = (.ok result, t)) :
    writeCount result = writeCount groups + targets.length := by
  induction targets generalizing es groups s with
  | nil =>
    simp only [assignmentGroups, Prod.mk.injEq, Except.ok.injEq] at h
    simp [h.1]
  | cons target targets ih =>
    cases es with
    | nil => simp at hlength
    | cons e es =>
      simp only [assignmentGroups] at h
      split at h
      · simp at h
      · split at h
        · simp at h
        · have hrest := ih (by simpa using hlength) h
          rw [hrest, writeCount_addUpdate, List.length_cons]
          omega

end Exec

namespace Executor

/-- Classification finds a place for every part of a program. -/
structure Classifiable (x : Executor) (turn : Nat) (p : Program) (s : State) : Prop where
  /-- What is appended to is a field of a variable. -/
  append : ∀ target value span, p.body = [.append target value span] →
    ∃ var attr, Exec.appendTarget target = .ok (var, attr)
  /-- Every target and every value of an assignment is in a write, and there is one. -/
  pairs : ∀ targets values span groups t, p.body = [.tupleAssign targets values span] →
    Exec.assignmentGroups x.registry targets values [] s = (.ok groups, t) →
    groups ≠ [] ∧ Exec.writeCount groups = targets.length ∧
      Exec.writeCount groups = values.length
  /-- A single statement is never reported as none. -/
  error : ∀ stmt e t, p.body = [stmt] → x.classify turn p s = (.error e, t) → e.kind ≠ .parse

theorem shaped_of_single {p : Program} {stmt : Stmt} (h : p.WellFormed) (hbody : p.body = [stmt]) :
    stmt.Shaped :=
  (h stmt (by simp [hbody])).shaped

theorem classifiable_of_wellFormed (x : Executor) (turn : Nat) {p : Program} (s : State)
    (h : p.WellFormed) : x.Classifiable turn p s where
  append target value span hbody := by
    obtain ⟨var, varSpan, attr, fieldSpan, rfl⟩ := shaped_of_single h hbody
    exact ⟨var, attr, rfl⟩
  pairs targets values span groups t hbody hgroups := by
    obtain ⟨hne, hlength, -⟩ := shaped_of_single h hbody
    have hcount : Exec.writeCount groups = targets.length := by
      simpa [Exec.writeCount] using Exec.writeCount_assignmentGroups hlength hgroups
    refine ⟨?_, hcount, hcount.trans hlength⟩
    rintro rfl
    exact hne (List.length_eq_zero_iff.mp hcount.symm)
  error stmt e t hbody herror := by
    have hshaped := shaped_of_single h hbody
    simp only [classify, Exec.classify, hbody] at herror
    obtain hsemantic | ⟨-, -, targets, values, span, rfl, hnone⟩ := Exec.classifyStmt_error herror
    · exact hsemantic.kind.1
    · obtain ⟨hne, hlength, -⟩ := hshaped
      obtain rfl | rfl := hnone
      · exact absurd rfl hne
      · exact absurd (List.length_eq_zero_iff.mp hlength) hne

theorem prepare_ok {x : Executor} {text : String} {p : Program} {followed : Bool}
    (h : x.prepare text = .ok (p, followed)) :
    ∃ expression q, Program.parse expression = .ok q ∧ p = x.rewriter.apply q := by
  unfold prepare at h
  split at h
  · simp at h
  · next expression _ _ =>
    cases hparse : Program.parse (String.ofList expression) with
    | error e => simp [hparse, bind, Except.bind] at h
    | ok q =>
      simp only [hparse, bind, Except.bind, pure, Except.pure, Except.ok.injEq,
        Prod.mk.injEq] at h
      exact ⟨_, q, hparse, h.1.symm⟩

/-- Whatever text is read, and whichever sugars it is rewritten by, the statements are well formed,
and the classification of a turn comes upon nothing that it would have to leave out. -/
theorem wellFormed_turn {x : Executor} {sugars : List Sugar} (hx : x.rewriter = .ofSugars sugars) :
    (∀ text p, Program.parse text = .ok p → p.WellFormed ∧ (x.rewriter.apply p).WellFormed) ∧
      ∀ turn text p followed s, x.prepare text = .ok (p, followed) →
        p.WellFormed ∧ x.Classifiable turn p s := by
  have hread : ∀ text p, Program.parse text = .ok p →
      p.WellFormed ∧ (x.rewriter.apply p).WellFormed := by
    intro text p hparse
    have hp := Program.wellFormed_of_parse hparse
    exact ⟨hp, hx ▸ Rewriter.wellFormed_apply sugars hp⟩
  refine ⟨hread, fun turn text p followed s hprepare => ?_⟩
  obtain ⟨expression, q, hparse, rfl⟩ := prepare_ok hprepare
  have hwell := (hread expression q hparse).2
  exact ⟨hwell, x.classifiable_of_wellFormed turn s hwell⟩

/-- Two fields that are assigned to, one of them of a result. -/
theorem wellFormed_turn_alarms :
    let x : Executor := ⟨.ofSchemas [], Sugar.defaults, .defaults⟩
    ∃ p, x.prepare "x0.time, x1[0].label = f(g(a=1, b=2), a=3), \"swim\" #y" = .ok (p, true) ∧
      p.WellFormed ∧ x.Classifiable 2 p (.new .empty) := by
  intro x
  have hprepare : (x.prepare "x0.time, x1[0].label = f(g(a=1, b=2), a=3), \"swim\" #y").map
      (·.2) = .ok true := by
    decide +kernel
  generalize htext : "x0.time, x1[0].label = f(g(a=1, b=2), a=3), \"swim\" #y" = text at *
  cases hread : x.prepare text with
  | error e => simp [hread, Except.map] at hprepare
  | ok r =>
    obtain ⟨p, followed⟩ := r
    obtain rfl : followed = true := by simpa [hread, Except.map] using hprepare
    obtain ⟨-, hturn⟩ := wellFormed_turn (show x.rewriter = .ofSugars Sugar.defaults from rfl)
    exact ⟨p, rfl, hturn 2 text p true (.new .empty) hread⟩

end Executor

end TaskDialogue
