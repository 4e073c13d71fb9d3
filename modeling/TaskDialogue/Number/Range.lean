/-!
# Whole numbers of 64 bits

A whole number of any size is kept only if a signed word of 64 bits holds it.
-/
namespace TaskDialogue.Number

/-- Whether a signed word of 64 bits holds the number. -/
def fitsInt64 (n : Int) : Bool := Int64.minValue.toInt ≤ n && n ≤ Int64.maxValue.toInt

/-- The word that holds the number, if one does. -/
def toInt64? (n : Int) : Option Int64 := if fitsInt64 n then some (Int64.ofInt n) else none

theorem fitsInt64_iff {n : Int} :
    fitsInt64 n = true ↔ -9223372036854775808 ≤ n ∧ n < 9223372036854775808 := by
  have hmin : Int64.minValue.toInt = -9223372036854775808 := by decide
  have hmax : Int64.maxValue.toInt = 9223372036854775807 := by decide
  simp only [fitsInt64, hmin, hmax, Bool.and_eq_true, decide_eq_true_eq]
  omega

theorem fitsInt64_toInt (x : Int64) : fitsInt64 x.toInt = true :=
  fitsInt64_iff.2 ⟨x.le_toInt, x.toInt_lt⟩

@[simp] theorem toInt64?_toInt (x : Int64) : toInt64? x.toInt = some x := by
  simp [toInt64?, fitsInt64_toInt]

end TaskDialogue.Number
