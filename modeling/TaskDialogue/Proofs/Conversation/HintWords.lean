import TaskDialogue.Proofs.Conversation.HintTurn

/-!
# What a derived hint says

A recommendation is answered with a hint: the words of the recommendation in quotes, and the name of
the variable that it is for. What was escaped is unescaped to the same words, whatever they are. But a
string ends with its line, so the hint is read as the call that it was made from if no line ends
within the dialogue, and otherwise it is not read at all.
-/
namespace TaskDialogue

open Syntax

/-- No line ends within what the application adds to a dialogue. -/
theorem RecommendedAction.lineEnd_hint {a : RecommendedAction} :
    (∀ c ∈ a.hint.toList, ¬IsLineEnd c) ↔ ∀ c ∈ a.dialogue.toList, ¬IsLineEnd c := by
  have hopening : ∀ c ∈ a.opening.toList ++ ": ".toList, ¬IsLineEnd c := by
    cases a <;> simp [opening, IsLineEnd]
  simp only [hint, String.toList_append, List.forall_mem_append]
  exact ⟨fun h => h.2, fun h => ⟨List.forall_mem_append.mp hopening, h⟩⟩

/-- A hint within whose words a line ends is no program. -/
theorem parse_hintText_cut {text : List Char} (index : Nat) (h : ¬∀ c ∈ text, ¬IsLineEnd c) :
    ∃ report, Program.parse (String.ofList (hintText text index)) = .error (.mismatch report) := by
  obtain ⟨start, c, rest, rfl, hcut, hstart⟩ := exists_cut h
  have hend : IsLineEnd c := Classical.not_not.mp hcut
  have hescape : escapeChar c = [c] := by
    obtain rfl | rfl := hend <;> rfl
  have htext : hintText (start ++ c :: rest) index = "hint".toList ++ '(' :: '"' ::
      (escape start ++ c :: (escape rest ++ '"' :: ',' :: ' ' :: refArgument index)) := by
    simp [hintText, hintArguments, escape, hescape]
  rw [htext]
  exact parse_unclosed hstart fun d hd => Option.some.inj hd ▸ hend

/-- The turn that follows a recommendation is read as one statement, which calls `hint` with the
words of the recommendation and the name of its variable, exactly if no line ends within the
dialogue. It is never read as anything else, and where it is not read the text leaves the grammar. -/
theorem parse_followUp?_iff {r : ActionResult} {a : RecommendedAction}
    (ha : r.recommendedAction = some a) (next : Nat) :
    ∃ text, followUp? r next = some (.autoTransient ⟨next, text⟩) ∧
      ((∃ p, Program.parse text = .ok p ∧
          IsHint (a.opening ++ ": " ++ a.dialogue) (varName r.index) p) ↔
        ∀ c ∈ a.dialogue.toList, ¬IsLineEnd c) ∧
      (∀ p, Program.parse text = .ok p →
        IsHint (a.opening ++ ": " ++ a.dialogue) (varName r.index) p) ∧
      ∀ e, Program.parse text = .error e → ∃ report, e = .mismatch report := by
  refine ⟨_, followUp?_recommended next ha, ?_⟩
  rw [← RecommendedAction.lineEnd_hint]
  have hwords : String.ofList a.hint.toList = a.opening ++ ": " ++ a.dialogue :=
    String.ofList_toList
  by_cases hlines : ∀ c ∈ a.hint.toList, ¬IsLineEnd c
  · obtain ⟨p, hparse, hp⟩ := parse_hintText r.index hlines
    rw [hwords] at hp
    refine ⟨⟨fun _ => hlines, fun _ => ⟨p, hparse, hp⟩⟩, fun q hq => ?_, fun e he => ?_⟩
    · rwa [← Except.ok.inj (hparse.symm.trans hq)]
    · rw [hparse] at he
      cases he
  · obtain ⟨report, hparse⟩ := parse_hintText_cut r.index hlines
    refine ⟨⟨fun ⟨p, hp, _⟩ => ?_, fun h => absurd h hlines⟩, fun p hp => ?_, fun e he => ?_⟩
    · rw [hparse] at hp
      cases hp
    · rw [hparse] at hp
      cases hp
    · exact ⟨report, (Except.error.inj (hparse.symm.trans he)).symm⟩

/-- Quotes and backslashes in a dialogue. -/
theorem parse_followUp?_quoted :
    let a : RecommendedAction := .askChoice "label" ["\"run\"", "c:\\swim"]
    let r : ActionResult := .recommended 2 a
    r.recommendedAction = some a ∧
      ∃ text p, followUp? r 3 = some (.autoTransient ⟨3, text⟩) ∧ Program.parse text = .ok p ∧
        IsHint "choose between values: label (\"run\", c:\\swim)" "x2" p := by
  intro a r
  have hwords : a.opening ++ ": " ++ a.dialogue =
      "choose between values: label (\"run\", c:\\swim)" := by decide +kernel
  obtain ⟨text, hturn, hreads, -⟩ := parse_followUp?_iff (r := r) (a := a) rfl 3
  have hlines : a.dialogue.toList.all (¬IsLineEnd ·) = true := by decide +kernel
  obtain ⟨p, hparse, hp⟩ := hreads.mpr (by simpa [List.all_eq_true] using hlines)
  rw [hwords, show varName r.index = "x2" by decide +kernel] at hp
  exact ⟨rfl, text, p, hturn, hparse, hp⟩

/-- A slot with a line feed in its name is asked for by a hint that cannot be read. -/
theorem followUp?_lineFeed :
    followUp? (.recommended 0 (.askValue "a\nb")) 1 =
        some (.autoTransient ⟨1, "hint(\"ask for value: Ask for a\nb\", ref=x0)"⟩) ∧
      ¬∃ p, Program.parse "hint(\"ask for value: Ask for a\nb\", ref=x0)" = .ok p ∧
        IsHint "ask for value: Ask for a\nb" "x0" p := by
  have hrefused : (Program.parse "hint(\"ask for value: Ask for a\nb\", ref=x0)").toOption.isSome =
      false := by
    decide +kernel
  refine ⟨by decide +kernel, fun ⟨p, hp, _⟩ => ?_⟩
  rw [hp] at hrefused
  cases hrefused

end TaskDialogue
