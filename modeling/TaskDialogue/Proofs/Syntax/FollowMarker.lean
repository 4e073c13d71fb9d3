import TaskDialogue.Syntax.FollowMarker

/-!
# The expression of a turn text

The first run of characters without a hash sign and without a line feed is the expression,
and only what comes after it can be a marker.
-/
namespace TaskDialogue

/-- A text in which nothing ends the expression is all expression. -/
theorem splitFollowMarker?_whole (marker : List Char) {text : List Char} (hne : text ≠ [])
    (h : ∀ c ∈ text, endsExpression c = false) :
    splitFollowMarker? marker text = some (text, false) := by
  have hstart : text.dropWhile endsExpression = text := by
    cases text with
    | nil => rfl
    | cons c cs => exact List.dropWhile_cons_of_neg (by simp [h c List.mem_cons_self])
  have hall : ∀ c ∈ text, (!endsExpression c) = true := fun c hc => by simp [h c hc]
  have htake : text.takeWhile (!endsExpression ·) = text := by
    rw [← List.append_nil text, List.takeWhile_append_of_pos hall, List.takeWhile_nil]
  have hdrop : text.dropWhile (!endsExpression ·) = [] := by
    rw [← List.append_nil text, List.dropWhile_append_of_pos hall, List.dropWhile_nil]
  cases marker <;> simp [splitFollowMarker?, hstart, htake, hdrop, hne]

/-- The expression of a text goes on up to the first character that ends it. -/
theorem splitFollowMarker?_cons (marker : List Char) {c : Char} (cs : List Char)
    (hc : endsExpression c = false) :
    ∃ followed, splitFollowMarker? marker (c :: cs) =
      some ((c :: cs).takeWhile (!endsExpression ·), followed) := by
  have hstart : (c :: cs).dropWhile endsExpression = c :: cs :=
    List.dropWhile_cons_of_neg (by simp [hc])
  simp [splitFollowMarker?, hstart]

end TaskDialogue
