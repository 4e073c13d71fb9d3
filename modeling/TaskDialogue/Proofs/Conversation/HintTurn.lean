import TaskDialogue.Proofs.Syntax.FollowMarker
import TaskDialogue.Proofs.Syntax.HintText
import TaskDialogue.Proofs.Task.Registry
import TaskDialogue.Proofs.Turn.Effects

/-!
# The turn of a hint

A hint is executed like any other turn. Its text is read back as a call, unless a hash sign
or a line end stands in what it says, since the text is then cut off within the string. The
call makes a command that asks for nothing. It is performed at once, and this clears the
recommendation that the hint says.
-/
namespace TaskDialogue

open Syntax

/-! ### What a hint can say -/

/-- Whether a character does not cut off the hint that it stands in. -/
def IsPlain (c : Char) : Prop := c ≠ '#' ∧ ¬IsLineEnd c

instance (c : Char) : Decidable (IsPlain c) :=
  inferInstanceAs (Decidable (c ≠ '#' ∧ ¬(c = '\n' ∨ c = '\r')))

theorem not_isPlain {c : Char} : ¬IsPlain c ↔ c = '#' ∨ IsLineEnd c := by
  by_cases hhash : c = '#' <;> simp [IsPlain, hhash]

/-- Whether a hint with the words of a recommendation is read back. -/
def RecommendedAction.Sayable (a : RecommendedAction) : Prop := ∀ c ∈ a.dialogue.toList, IsPlain c

/-- What a hint says besides is plain. -/
theorem RecommendedAction.plain_hint {a : RecommendedAction} :
    (∀ c ∈ a.hint.toList, IsPlain c) ↔ a.Sayable := by
  have hopening : ∀ c ∈ a.opening.toList ++ ": ".toList, IsPlain c := by
    cases a <;> simp [opening, IsPlain, IsLineEnd]
  simp only [hint, String.toList_append, List.forall_mem_append, Sayable]
  exact ⟨fun h => h.2, fun h => ⟨List.forall_mem_append.mp hopening, h⟩⟩

theorem IsPlain.not_endsExpression {c : Char} (h : IsPlain c) : endsExpression c = false := by
  simp only [IsPlain, IsLineEnd, not_or] at h
  simp [endsExpression, h]

/-- What was escaped has no characters that it had not before, but for slashes. -/
theorem not_endsExpression_escape {text : List Char} (h : ∀ c ∈ text, IsPlain c) :
    ∀ c ∈ escape text, endsExpression c = false := by
  intro c hc
  obtain ⟨d, hd, hc⟩ := List.mem_flatMap.mp hc
  have hplain := (h d hd).not_endsExpression
  unfold escapeChar at hc
  split at hc
  · simp only [List.mem_cons, List.not_mem_nil, or_false, or_self] at hc
    rw [hc]
    decide
  · split at hc
    · simp only [List.mem_cons, List.not_mem_nil, or_false] at hc
      obtain rfl | rfl := hc <;> decide
    · rwa [List.mem_singleton.mp hc]

/-- The first character of a text that is not as the others should be. -/
theorem exists_cut {P : Char → Prop} [DecidablePred P] {text : List Char} (h : ¬∀ c ∈ text, P c) :
    ∃ start c rest, text = start ++ c :: rest ∧ ¬P c ∧ ∀ d ∈ start, P d := by
  have hsome : (text.find? fun c => !decide (P c)).isSome := by
    simpa [List.find?_isSome] using h
  obtain ⟨c, hc⟩ := Option.isSome_iff_exists.mp hsome
  obtain ⟨hcut, start, rest, hrest, hstart⟩ := List.find?_eq_some_iff_append.mp hc
  exact ⟨start, c, rest, hrest, by simpa using hcut, fun d hd => by simpa using hstart d hd⟩

/-! ### The program of a hint -/

/-- Whether a rewriter hands back the call of a hint. -/
def Rewriter.KeepsHints (r : Rewriter) : Prop :=
  ∀ p text var, IsHint text var p → r.apply p = p

theorem Sugar.expand_hint {sugar : Sugar} {p : Program} {text var : String}
    (h : IsHint text var p) : sugar.expand p = p := by
  obtain ⟨s₁, s₂, s₃, s₄, s₅, s₆, hbody⟩ := h
  have hnone : sugar.match? p = none := by simp [match?, hbody]
  simp only [expand, hnone]

/-- A hint is no sugar. -/
theorem Rewriter.keepsHints_ofSugars (sugars : List Sugar) : (ofSugars sugars).KeepsHints := by
  intro p text var h
  rw [apply_ofSugars]
  induction sugars with
  | nil => rfl
  | cons sugar sugars ih =>
    rw [Sugar.expandAll, List.foldl_cons, Sugar.expand_hint h]
    exact ih

/-- The hint that follows a recommendation. -/
theorem followUp?_recommended {r : ActionResult} {a : RecommendedAction} (next : Nat)
    (ha : r.recommendedAction = some a) :
    followUp? r next =
      some (.autoTransient ⟨next, String.ofList (hintText a.hint.toList r.index)⟩) := by
  simp only [followUp?, ha, Option.some.injEq, Turn.autoTransient.injEq, ProgramTurn.mk.injEq,
    true_and]
  apply String.toList_injective
  simp [hintText, hintArguments, refArgument]

/-- The characters of a plain hint do not end the expression. -/
theorem not_endsExpression_hintText {text : List Char} (index : Nat)
    (h : ∀ c ∈ text, IsPlain c) : ∀ c ∈ hintText text index, endsExpression c = false := by
  have hname : ∀ c ∈ (varName index).toList, endsExpression c = false := by
    rw [toList_varName]
    refine List.forall_mem_cons.mpr ⟨by decide, fun c hc => ?_⟩
    have hdigit := Nat.isDigit_of_mem_toDigits (by decide) (by decide) hc
    have hhash : c ≠ '#' := by
      rintro rfl
      exact absurd hdigit (by decide)
    have hend : c ≠ '\n' := by
      rintro rfl
      exact absurd hdigit (by decide)
    simp [endsExpression, hhash, hend]
  simp only [hintText, hintArguments, refArgument, List.forall_mem_append, List.forall_mem_cons]
  exact ⟨by simp [endsExpression], by decide, by decide, not_endsExpression_escape h, by decide,
    by decide, by decide, by simp [endsExpression], by decide, hname, by decide,
    List.forall_mem_nil _⟩

/-- The expression of a hint that is not plain ends within its words, or goes on with a line
end there. -/
theorem splitFollowMarker?_cut (marker : List Char) {text : List Char} (index : Nat)
    (h : ¬∀ c ∈ text, IsPlain c) :
    ∃ followed start tail, splitFollowMarker? marker (hintText text index) =
        some ("hint".toList ++ '(' :: '"' :: (escape start ++ tail), followed) ∧
      (∀ c ∈ start, ¬IsLineEnd c) ∧ ∀ c, tail.head? = some c → IsLineEnd c := by
  obtain ⟨start, c, rest, rfl, hcut, hstart⟩ := exists_cut h
  have hescape : escapeChar c = [c] := by
    obtain rfl | rfl | rfl := not_isPlain.mp hcut <;> rfl
  let more := escape rest ++ '"' :: ',' :: ' ' :: refArgument index
  have htext : hintText (start ++ c :: rest) index =
      'h' :: ("int".toList ++ '(' :: '"' :: (escape start ++ c :: more)) := by
    simp [hintText, hintArguments, more, escape, hescape]
  have hkept : ∀ d ∈ "hint".toList ++ '(' :: '"' :: escape start, (!endsExpression d) = true := by
    simp only [List.forall_mem_append, List.forall_mem_cons]
    exact ⟨List.all_eq_true.mp rfl, by decide, by decide, fun d hd => by
      simp [not_endsExpression_escape hstart d hd]⟩
  have htake : ('h' :: ("int".toList ++ '(' :: '"' :: (escape start ++ c :: more))).takeWhile
      (!endsExpression ·) =
      "hint".toList ++ '(' :: '"' :: (escape start ++ (c :: more).takeWhile (!endsExpression ·)) := by
    have happend : ("hint".toList ++ '(' :: '"' :: escape start ++ c :: more).takeWhile
        (!endsExpression ·) = _ := List.takeWhile_append_of_pos hkept
    simpa using happend
  obtain ⟨followed, hsplit⟩ := splitFollowMarker?_cons marker (c := 'h')
    ("int".toList ++ '(' :: '"' :: (escape start ++ c :: more)) (by decide)
  rw [htake, ← htext] at hsplit
  refine ⟨followed, start, _, hsplit, fun d hd => (hstart d hd).2, fun d hd => ?_⟩
  cases hc : endsExpression c with
  | true => simp [hc] at hd
  | false =>
    simp only [List.takeWhile_cons, hc, Bool.not_false, if_true, List.head?_cons,
      Option.some.injEq] at hd
    subst hd
    obtain rfl | hend := not_isPlain.mp hcut
    · exact absurd hc (by decide)
    · exact hend

namespace Executor

variable {x : Executor} {text : List Char}

/-- A plain hint is prepared as the call that it is, and follows nothing. -/
theorem prepare_hintText (hkeeps : x.rewriter.KeepsHints) (index : Nat)
    (h : ∀ c ∈ text, IsPlain c) :
    ∃ p, x.prepare (String.ofList (hintText text index)) = .ok (p, false) ∧
      IsHint (String.ofList text) (varName index) p := by
  obtain ⟨p, hparse, hp⟩ := parse_hintText index fun c hc => (h c hc).2
  have hne : hintText text index ≠ [] := List.cons_ne_nil _ _
  have hsplit := splitFollowMarker?_whole x.options.followMarker.toList hne
    (not_endsExpression_hintText index h)
  refine ⟨p, ?_, hp⟩
  simp only [prepare, String.toList_ofList]
  rw [hsplit]
  simp only [hparse, bind, Except.bind, pure, Except.pure, hkeeps p _ _ hp]

/-- A hint that is not plain is cut off within its words, and then it is no program. -/
theorem prepare_hintText_cut (x : Executor) (index : Nat) (h : ¬∀ c ∈ text, IsPlain c) :
    ∃ e, x.prepare (String.ofList (hintText text index)) = .error e := by
  obtain ⟨followed, start, tail, hsplit, hstart, htail⟩ :=
    splitFollowMarker?_cut x.options.followMarker.toList index h
  obtain ⟨report, hparse⟩ := parse_unclosed hstart htail
  refine ⟨.mismatch report, ?_⟩
  simp only [prepare, String.toList_ofList]
  rw [hsplit]
  simp only [hparse, bind, Except.bind]

end Executor

/-! ### The command of a hint -/

def hintSchema : CommandSchema :=
  Registry.auxiliarySchema "hint" .hint [("message", .str), ("ref", .any)]

/-- The command that a hint makes. -/
def hintCommand (text : String) (ref : Value) : Command :=
  { Command.ofSchema hintSchema with values := [.str text, ref] }

/-- No domain has another meaning for a hint. -/
theorem Registry.build_hint (domain : List CommandSchema) :
    (ofSchemas domain).build "hint" = .ok (.ofSchema hintSchema) := by
  rw [build, get?_ofSchemas]
  rfl

namespace Exec

variable {registry : Registry} {s : State} {p : Program} {text var : String}

theorem object_made (s : State) (o : TaskObject) : (s.alloc o).object s.nextId = o := by
  rw [State.object_alloc, State.nextId, if_pos rfl]

/-- A hint makes its command, if its variable is bound. -/
theorem classify_hint (hbuild : registry.build "hint" = .ok (.ofSchema hintSchema))
    (policy : MultiTargetPolicy) (turn : Nat) (hp : IsHint text var p) :
    classify registry policy turn p s =
      match s.find? var with
      | none => (.error (.unboundVariable var), s)
      | some value =>
        (.ok (.on (varName turn) turn (.command s.nextId false)),
          s.alloc (.command (hintCommand text value))) := by
  obtain ⟨s₁, s₂, s₃, s₄, s₅, s₆, hbody⟩ := hp
  have hmessage : (Command.ofSchema hintSchema).set "message" (.str text) =
    .ok (hintCommand text .none) := rfl
  have href : ∀ value, (hintCommand text .none).set "ref" value = .ok (hintCommand text value) :=
    fun value => by cases value <;> rfl
  have hslots : (Command.ofSchema hintSchema).schema.positional = ["message", "ref"] := rfl
  have hmade : ∀ value, callKind (s.alloc (.command (hintCommand text value))) (.object s.nextId) =
      .ok (.command s.nextId false) := by
    intro value
    simp only [callKind, object_made]
    rfl
  simp only [classify, hbody, classifyStmt, eval, Expr.name?, hbuild, hslots, List.length_cons,
    List.length_nil, fillPositional, hmessage, fillKeywords, State.lookup]
  cases s.find? var with
  | none => simp
  | some value => simp [href, hmade, Except.map]

/-- A hint is performed as soon as it is made, and then nothing is recommended. -/
theorem run_hint (index : Nat) (value : Value) :
    ∃ r t, runKind var index (.command s.nextId false)
      (s.alloc (.command (hintCommand text value))) = (.ok r, t) ∧ t.recommendation = none := by
  let u := (s.alloc (.command (hintCommand text value))).bind var (.object s.nextId)
  have htask : u.task ⟨s.nextId, none⟩ = .command (hintCommand text value) := by
    rw [State.task, TaskObject.part_none]
    exact object_made s _
  have hask : (u.task ⟨s.nextId, none⟩).recommend? = none := by
    rw [htask]
    rfl
  have hperform : (u.task ⟨s.nextId, none⟩).perform u.context =
      .ok (none, .command (hintCommand text value)) := by
    rw [htask]
    rfl
  obtain ⟨_, h, -⟩ | ⟨-, ⟨_, h, -⟩ | ⟨output, changed, -, h⟩⟩ :=
    performOrRecommend_cases var index ⟨s.nextId, none⟩ u
  · rw [hask] at h
    cases h
  · rw [hperform] at h
    cases h
  · exact ⟨_, _, h, rfl⟩

end Exec

namespace Executor

variable {x : Executor} {domain : List CommandSchema} {text : List Char} {s : State}

/-- A plain hint about a variable that is bound succeeds, and nothing is recommended then. -/
theorem execute_hintText (hregistry : x.registry = .ofSchemas domain)
    (hkeeps : x.rewriter.KeepsHints) (turn index : Nat) (htext : ∀ c ∈ text, IsPlain c)
    (hbound : (s.find? (varName index)).isSome) :
    ∃ r t, x.execute turn (String.ofList (hintText text index)) s = (.ok r, t) ∧
      t.recommendation = none := by
  obtain ⟨p, hprepare, hp⟩ := prepare_hintText hkeeps index htext
  obtain ⟨value, hvalue⟩ := Option.isSome_iff_exists.mp hbound
  have hclassify := Exec.classify_hint (s := s) (Registry.build_hint domain)
    x.options.multiTargetPolicy turn hp
  rw [hvalue] at hclassify
  simp only [execute, hprepare, executeProgram, classify, hregistry, hclassify, Exec.run,
    Bool.false_eq_true, if_false]
  exact Exec.run_hint _ value

/-- Any other hint fails. -/
theorem execute_hintText_error (hregistry : x.registry = .ofSchemas domain)
    (hkeeps : x.rewriter.KeepsHints) (turn index : Nat)
    (h : ¬((∀ c ∈ text, IsPlain c) ∧ (s.find? (varName index)).isSome)) :
    ∃ e t, x.execute turn (String.ofList (hintText text index)) s = (.error e, t) := by
  by_cases htext : ∀ c ∈ text, IsPlain c
  · obtain ⟨p, hprepare, hp⟩ := prepare_hintText hkeeps index htext
    have hunbound : s.find? (varName index) = none := by
      rw [← Option.not_isSome_iff_eq_none]
      exact fun hbound => h ⟨htext, hbound⟩
    have hclassify := Exec.classify_hint (s := s) (Registry.build_hint domain)
      x.options.multiTargetPolicy turn hp
    rw [hunbound] at hclassify
    simp only [execute, hprepare, executeProgram, classify, hregistry, hclassify]
    exact ⟨_, _, rfl⟩
  · obtain ⟨e, he⟩ := prepare_hintText_cut x index htext
    simp only [execute, he]
    exact ⟨_, _, rfl⟩

end Executor

end TaskDialogue
