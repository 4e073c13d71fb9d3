import TaskDialogue.Proofs.Syntax.Sentences
import TaskDialogue.Proofs.Transcript.MarkerLine
import TaskDialogue.Proofs.Turn.Ranges

/-!
# A sugar means what it stands for

A sentence is executed as the program that it is, whatever stands behind its line. The ranges that
its text gives to the program do not matter. The call of a sugar and what it stands for are two
sentences that are rewritten to one program, so their turns are the same in every state.
-/
namespace TaskDialogue

open Syntax

namespace Syntax

/-- What the grammar takes as one identifier is a name. -/
theorem IsName.of_scanIdentifier {word : List Char} (h : scanIdentifier word = some (word, [])) :
    IsName word := by
  simp only [scanIdentifier] at h
  split at h
  · next hcond =>
    obtain ⟨hword, -⟩ := Prod.mk.inj (Option.some.inj h)
    rw [hword, Bool.and_eq_true] at hcond
    obtain ⟨c, hc, hstart⟩ := (Option.any_eq_true _ _).mp hcond.1
    refine ⟨⟨c, word.tail, (List.cons_head?_tail hc).symm, hstart⟩, fun d hd => ?_, ?_⟩
    · rw [← hword] at hd
      exact List.mem_takeWhile_imp hd
    · simpa using hcond.2
  · simp at h

/-- No character of a name ends an expression. -/
theorem not_endsExpression_of_isIdentChar {c : Char} (h : isIdentChar c = true) :
    endsExpression c = false := by
  have hhash : c ≠ '#' := by
    rintro rfl
    exact absurd h (by decide)
  have hend : c ≠ '\n' := by
    rintro rfl
    exact absurd h (by decide)
  simp [endsExpression, hhash, hend]

end Syntax

/-! ### The turn of a sentence -/

/-- A sentence in which nothing ends an expression, in front of a text that is empty or ends it. -/
structure Stmt.OnLine (stmt : Stmt) (tail : List Char) : Prop where
  sentence : stmt.IsSentence
  goesOn : ∀ c ∈ stmt.print, endsExpression c = false
  stops : ∀ c, tail.head? = some c → endsExpression c = true

theorem Stmt.OnLine.splitsAs {stmt : Stmt} {tail : List Char} (h : stmt.OnLine tail) :
    SplitsAs (stmt.print ++ tail) [] stmt.print tail where
  parts := (List.nil_append _).symm
  skips := List.forall_mem_nil _
  nonempty := by
    intro hnil
    obtain ⟨p, hparse, herase⟩ := Program.parse_print h.sentence
    rw [hnil] at hparse
    have hempty : Program.parse (String.ofList []) = .ok ⟨[]⟩ := by decide +kernel
    obtain rfl : (⟨[]⟩ : Program) = p := Except.ok.inj (hempty.symm.trans hparse)
    simp [Program.erase] at herase
  goesOn := h.goesOn
  stops := h.stops

namespace Executor

variable {x : Executor} {sugars : List Sugar}

/-- The turn of a sentence is its program, rewritten and run. It is followed if the marker stands
behind it. -/
theorem execute_sentence (hrewriter : x.rewriter = .ofSugars sugars) {stmt : Stmt} {tail : List Char}
    (h : stmt.OnLine tail) (turn : Nat) (s : State) :
    x.execute turn (String.ofList (stmt.print ++ tail)) s =
      x.executeProgram turn (Sugar.expandAll sugars ⟨[stmt]⟩)
        (followedBy x.options.followMarker.toList tail) s := by
  obtain ⟨p, hparse, herase⟩ := Program.parse_print h.sentence
  have hsame : p.erase = (⟨[stmt]⟩ : Program).erase := herase
  have hprepare : x.prepare (String.ofList (stmt.print ++ tail)) =
      .ok (x.rewriter.apply p, followedBy x.options.followMarker.toList tail) := by
    rw [prepare, String.toList_ofList, h.splitsAs.splitFollowMarker?_eq]
    simp only [hparse]
    rfl
  rw [execute, hprepare, ← Rewriter.apply_ofSugars, ← hrewriter]
  exact executeProgram_congr (rewrite_congr hrewriter hsame) turn _ s

end Executor

/-! ### The turns of a sugar -/

namespace Sugar

/-- The call of a sugar, not read from a text. -/
def call (sugar : Sugar) (v : String) : Stmt :=
  .expr (.call (.name sugar.id .none) [.name v .none] [] .none) .none

variable {v : String} {tail : List Char}

theorem calls_call (sugar : Sugar) (v : String) :
    sugar.Calls ⟨[sugar.call v]⟩ v .none .none := ⟨.none, .none, rfl⟩

theorem print_call (sugar : Sugar) (v : String) :
    (sugar.call v).print = sugar.id.toList ++ '(' :: (v.toList ++ [')']) := by
  simp [call, Stmt.print, Expr.print, printAll, printKeywords, commaSeparated_cons]

theorem print_meaning (sugar : Sugar) (v : String) :
    (sugar.meaning v .none .none).print =
      v.toList ++ (match sugar with | confirm => ".confirmed = True".toList | resume => []) := by
  cases sugar <;> simp [meaning, Stmt.print, Expr.print, confirmedAttr]

theorem onLine_call (sugar : Sugar) (hv : IsName v.toList)
    (htail : ∀ c, tail.head? = some c → endsExpression c = true) : (sugar.call v).OnLine tail where
  sentence :=
    { shaped := ⟨sugar.id, .none, rfl⟩
      phrases := by
        have hid : IsName sugar.id.toList := by cases sugar <;> decide
        simp only [call, Stmt.parts, List.forall_mem_singleton]
        exact ⟨trivial, hid, ⟨hv, trivial⟩, trivial, List.nodup_nil⟩
      several := by rintro _ _ _ ⟨⟩ }
  goesOn := by
    have hid : ∀ c ∈ sugar.id.toList, endsExpression c = false := by
      cases sugar <;> simp [id, endsExpression]
    rw [print_call]
    simp only [List.forall_mem_append, List.forall_mem_cons]
    exact ⟨hid, by decide, fun c hc => not_endsExpression_of_isIdentChar (hv.chars c hc), by decide,
      List.forall_mem_nil _⟩
  stops := htail

theorem onLine_meaning (sugar : Sugar) (hv : IsName v.toList)
    (htail : ∀ c, tail.head? = some c → endsExpression c = true) :
    (sugar.meaning v .none .none).OnLine tail where
  sentence :=
    { shaped := by
        cases sugar with
        | confirm => exact ⟨_, _, _, rfl⟩
        | resume => trivial
      phrases := by
        cases sugar with
        | confirm =>
          simp only [meaning, Stmt.parts, List.forall_mem_cons]
          exact ⟨⟨trivial, hv, by decide⟩, trivial, List.forall_mem_nil _⟩
        | resume =>
          simp only [meaning, Stmt.parts, List.forall_mem_singleton]
          exact hv
      several := by cases sugar <;> rintro _ _ _ ⟨⟩ }
  goesOn := by
    rw [print_meaning]
    refine List.forall_mem_append.mpr
      ⟨fun c hc => not_endsExpression_of_isIdentChar (hv.chars c hc), ?_⟩
    cases sugar <;> simp [endsExpression]
  stops := htail

end Sugar

namespace Executor

variable {x : Executor} {sugars : List Sugar}

/-- The turn that calls a sugar is the turn of what the call stands for. -/
theorem execute_call (hrewriter : x.rewriter = .ofSugars sugars) {sugar : Sugar}
    (hsugar : sugar ∈ sugars) {v : String} (hv : IsName v.toList) {tail : List Char}
    (htail : ∀ c, tail.head? = some c → endsExpression c = true) (turn : Nat) (s : State) :
    x.execute turn (String.ofList ((sugar.call v).print ++ tail)) s =
      x.execute turn (String.ofList ((sugar.meaning v .none .none).print ++ tail)) s := by
  rw [execute_sentence hrewriter (sugar.onLine_call hv htail),
    execute_sentence hrewriter (sugar.onLine_meaning hv htail),
    Sugar.expandAll_of_calls sugars (sugar.calls_call v), if_pos hsugar,
    Sugar.expandAll_of_not_calls fun _ _ _ _ _ => Sugar.not_calls_meaning _ _ _]

/-- The turn `confirm(v)` is the turn `v.confirmed = True`, and `resume(v)` is the turn `v`, with the
same marker or comment behind both and in every state. Programs that differ in ranges at most are
rewritten to such programs and executed alike. -/
theorem execute_sugar (x : Executor) (hrewriter : x.rewriter = .ofSugars Sugar.defaults) (turn : Nat)
    (s : State) (v tail : String) (hv : scanIdentifier v.toList = some (v.toList, []))
    (htail : ∀ c, tail.toList.head? = some c → c = '#' ∨ c = '\n') :
    x.execute turn ("confirm(" ++ v ++ ")" ++ tail) s =
        x.execute turn (v ++ ".confirmed = True" ++ tail) s ∧
      x.execute turn ("resume(" ++ v ++ ")" ++ tail) s = x.execute turn (v ++ tail) s ∧
      ∀ p q : Program, p.erase = q.erase →
        (x.rewriter.apply p).erase = (x.rewriter.apply q).erase ∧
          ∀ i followed t, x.executeProgram i p followed t = x.executeProgram i q followed t := by
  have hname : IsName v.toList := .of_scanIdentifier hv
  have hstops : ∀ c, tail.toList.head? = some c → endsExpression c = true := by
    intro c hc
    obtain rfl | rfl := htail c hc <;> rfl
  have hcall : ∀ sugar : Sugar, String.ofList ((sugar.call v).print ++ tail.toList) =
      sugar.id ++ "(" ++ v ++ ")" ++ tail := by
    intro sugar
    apply String.toList_injective
    simp [Sugar.print_call]
  have hmeaning : ∀ sugar : Sugar, String.ofList ((sugar.meaning v .none .none).print ++ tail.toList) =
      v ++ (match sugar with | .confirm => ".confirmed = True" | .resume => "") ++ tail := by
    intro sugar
    apply String.toList_injective
    cases sugar <;> simp [Sugar.print_meaning]
  have hexecute : ∀ sugar ∈ Sugar.defaults, _ := fun sugar hsugar =>
    execute_call hrewriter hsugar hname hstops turn s
  simp only [hcall, hmeaning] at hexecute
  refine ⟨?_, ?_, fun p q h => ⟨rewrite_congr hrewriter h, fun i followed t =>
    executeProgram_congr h i followed t⟩⟩
  · simpa [Sugar.id] using hexecute .confirm (by decide)
  · simpa [Sugar.id] using hexecute .resume (by decide)

/-- An alarm that is to be confirmed, with the marker behind the turn. -/
theorem execute_sugar_alarm :
    let schema : CommandSchema := ⟨"create_alarm", .intent, [], [], true, none⟩
    let x : Executor := ⟨.ofSchemas [schema], Sugar.defaults, .defaults⟩
    let s := (x.execute 0 "create_alarm()" (.new .empty)).2
    x.execute 1 "confirm(x0)#y" s = x.execute 1 "x0.confirmed = True#y" s ∧
      x.execute 1 "resume(x0)#y" s = x.execute 1 "x0#y" s ∧
      (x.execute 1 "x0.confirmed = True#y" s).1.toOption =
        some (.performed 0 (some (.inform "Success"))) ∧
      (x.execute 1 "x0#y" s).1.toOption = some (.recommended 0 .askConfirmation) := by
  intro schema x s
  have hmarker : ∀ c, "#y".toList.head? = some c → c = '#' ∨ c = '\n' := by
    rintro _ ⟨⟩
    exact .inl rfl
  obtain ⟨hconfirm, hresume, -⟩ := execute_sugar x rfl 1 s "x0" "#y" (by decide) hmarker
  exact ⟨hconfirm, hresume, by decide +kernel, by decide +kernel⟩

end Executor

end TaskDialogue
