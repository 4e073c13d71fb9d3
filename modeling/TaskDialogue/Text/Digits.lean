/-!
# Natural numbers in decimal digits

Reading checks a bound, since the numbers of a dialogue are machine words. The
digits that `Nat.repr` writes are read back, with or without a plus sign.
-/
namespace TaskDialogue.Text

/-- One more than the greatest index. -/
def indexBound : Nat := UInt64.size

/-- The number that a nonempty run of decimal digits denotes. -/
def readDigits? (cs : List Char) : Option Nat :=
  if cs.isEmpty || !cs.all Char.isDigit then none else some (Nat.ofDigitChars 10 cs 0)

/-- An index: decimal digits after at most one plus sign, below `indexBound`. -/
def readIndex? (cs : List Char) : Option Nat :=
  let digits := match cs with
    | '+' :: rest => rest
    | _ => cs
  (readDigits? digits).filter (· < indexBound)

theorem readDigits?_toDigits (n : Nat) : readDigits? (Nat.toDigits 10 n) = some n := by
  have hd : (Nat.toDigits 10 n).all Char.isDigit = true := by
    simpa using fun c hc => Nat.isDigit_of_mem_toDigits (by decide) (by decide) hc
  have hn : (Nat.toDigits 10 n).isEmpty = false := by
    simp [Nat.toDigits_ne_nil]
  simp only [readDigits?, hd, hn, Bool.not_true, Bool.or_self, Bool.false_eq_true, ↓reduceIte]
  rw [Nat.ofDigitChars_toDigits (by decide) (by decide)]

/-- The written form of an index is read back. -/
theorem readIndex?_toDigits {n : Nat} (h : n < indexBound) :
    readIndex? (Nat.toDigits 10 n) = some n := by
  have hd := readDigits?_toDigits n
  unfold readIndex?
  split
  · rename_i rest heq
    exact absurd (Nat.isDigit_of_mem_toDigits (by decide) (by decide)
      (heq ▸ List.mem_cons_self : '+' ∈ Nat.toDigits 10 n)) (by decide)
  · simp [hd, h]

end TaskDialogue.Text
