/-!
# Ranges of characters

Classes of characters are given by tables of ranges in ascending order.
-/
namespace TaskDialogue.Text

/-- Whether a range holds the number of a character. Both ends belong to a range. -/
def covers (ranges : List (Nat × Nat)) (c : Char) : Bool :=
  ranges.any fun r => r.1 ≤ c.toNat && c.toNat ≤ r.2

theorem covers_of_mem {ranges : List (Nat × Nat)} {r : Nat × Nat} (hr : r ∈ ranges) {c : Char}
    (h1 : r.1 ≤ c.toNat) (h2 : c.toNat ≤ r.2) : covers ranges c = true :=
  List.any_eq_true.2 ⟨r, hr, by simp [h1, h2]⟩

end TaskDialogue.Text
