import TaskDialogue.Number.Double

/-!
# Shortest decimal text

Of all decimals that round to a double, the ones with the fewest digits are
sought, and of those the nearest. A grid of decimals with a given number of
digits holds such a decimal exactly when one of the two grid points around the
value rounds to it, so two candidates a grid are enough.

How the digits are laid out is a `DecimalStyle`.
-/
namespace TaskDialogue.Double

/-- `digits * 10 ^ exponent`. -/
structure Decimal where
  digits : Nat
  exponent : Int
deriving Repr

/-- The decimal without trailing zeros in its digits. -/
def Decimal.strip : Nat → Decimal → Decimal
  | 0, d => d
  | fuel + 1, d =>
    if d.digits % 10 = 0 then Decimal.strip fuel ⟨d.digits / 10, d.exponent + 1⟩ else d

/-- The least `k` with `num / den < 10 ^ k`, from an estimate by binary
logarithms that is off by less than two. -/
def decimalOrder (num den : Nat) : Int :=
  let estimate : Int := ((num.log2 : Int) - den.log2) * 30103 / 100000
  let below (k : Int) : Bool :=
    if 0 ≤ k then num < den * Nat.pow 10 k.toNat else num * Nat.pow 10 (-k).toNat < den
  if below (estimate - 1) then estimate - 1
  else if below estimate then estimate
  else if below (estimate + 1) then estimate + 1
  else estimate + 2

/-- Which of two equally near decimals is taken. -/
inductive Tie where
  | up
  /-- The one whose last digit is even. -/
  | even
deriving DecidableEq, Repr

/-- Whether the upper of two equally near grid points is taken, given the lower one. -/
def Tie.takesUpper : Tie → (floor : Nat) → Bool
  | up, _ => true
  | even, floor => floor % 2 = 1

/-- The decimal on the grid of step `10 ^ exponent` that rounds to the double and
is nearest to it, if one rounds to it. -/
def onGrid? (x : Double) (tie : Tie) (exponent : Int) : Option Decimal :=
  let low := if x.significand = exponentWeight ∧ 0 < x.doublings then 1 else 2
  let grow := if 0 ≤ exponent then 1 else Nat.pow 10 (-exponent).toNat
  let scale := grow <<< x.doublings
  let den := 4 * unitsPerOne * (if 0 ≤ exponent then Nat.pow 10 exponent.toNat else 1)
  let value := 4 * x.significand * scale
  let least := (4 * x.significand - low) * scale
  let greatest := (4 * x.significand + 2) * scale
  let closed := x.significand % 2 = 0
  let rounds (point : Nat) : Bool :=
    if closed then least ≤ point * den && point * den ≤ greatest
    else least < point * den && point * den < greatest
  let floor := value / den
  let above := (floor + 1) * den - value
  let below := value - floor * den
  let upper := if above < below then true else above = below && tie.takesUpper floor
  match rounds floor, rounds (floor + 1) with
  | true, true => some ⟨if upper then floor + 1 else floor, exponent⟩
  | true, false => some ⟨floor, exponent⟩
  | false, true => some ⟨floor + 1, exponent⟩
  | false, false => none

/-- The shortest decimal that rounds to a finite double other than zero.
Seventeen digits always suffice. -/
def shortest (x : Double) (tie : Tie) : Decimal :=
  let order := decimalOrder x.units unitsPerOne
  let found := (List.range 17).findSome? fun (n : Nat) => onGrid? x tie (order - (n + 1))
  Decimal.strip 20 (found.getD ⟨x.units, 0⟩)

/-- How a decimal is laid out. -/
structure DecimalStyle where
  /-- Whether a decimal whose first digit counts `10 ^ order` is written without
  an exponent. -/
  positional : (order : Int) → Bool
  /-- What follows a number that has no fraction. -/
  wholeEnding : String
  tie : Tie

/-- Every digit is written out and whole numbers have no point. -/
def plainStyle : DecimalStyle := ⟨fun _ => true, "", .up⟩

/-- Digits with a point from `10⁻⁵` up to `10¹⁶`, otherwise an exponent with its
sign. -/
def jsonStyle : DecimalStyle := ⟨fun order => -5 ≤ order && order < 16, ".0", .even⟩

/-- The decimal digits with a point, and without an exponent. -/
def Decimal.positional (style : DecimalStyle) (d : Decimal) : String :=
  let ds := Nat.toDigits 10 d.digits
  if 0 ≤ d.exponent then
    String.ofList (ds ++ List.replicate d.exponent.toNat '0') ++ style.wholeEnding
  else
    let places := (-d.exponent).toNat
    if places < ds.length then
      String.ofList (ds.take (ds.length - places) ++ '.' :: ds.drop (ds.length - places))
    else String.ofList ('0' :: '.' :: List.replicate (places - ds.length) '0' ++ ds)

/-- One digit before the point and an exponent with its sign. -/
def Decimal.scientific (d : Decimal) : String :=
  let ds := Nat.toDigits 10 d.digits
  let order := d.exponent + (ds.length - 1 : Nat)
  let point := if ds.length = 1 then [] else '.' :: ds.tail
  String.ofList (ds.take 1 ++ point) ++ (if order < 0 then "e-" else "e+") ++ toString order.natAbs

def render (style : DecimalStyle) (x : Double) : String :=
  if x.isNaN then "NaN" else
  let magnitude :=
    if !x.isFinite then "inf"
    else if x.units = 0 then "0" ++ style.wholeEnding
    else
      let d := x.shortest style.tie
      let order := d.exponent + ((Nat.toDigits 10 d.digits).length - 1 : Nat)
      if style.positional order then d.positional style else d.scientific
  if x.isNegative then "-" ++ magnitude else magnitude

end TaskDialogue.Double
