import TaskDialogue.Number.Double
import TaskDialogue.Number.Range

/-!
# Numbers in plain text

The whole text must be a number: no blanks stand around it and no underscores in it.
-/
namespace TaskDialogue.Number

/-- A sign, if there is one: whether the number is negative. -/
def sign : List Char → Bool × List Char
  | '-' :: rest => (true, rest)
  | '+' :: rest => (false, rest)
  | cs => (false, cs)

/-- A whole number of 64 bits in decimal digits. -/
def whole? (cs : List Char) : Option Int :=
  let (negative, ds) := sign cs
  if ds.isEmpty || !ds.all Char.isDigit then none
  else
    let n : Int := Nat.ofDigitChars 10 ds 0
    let n := if negative then -n else n
    if fitsInt64 n then some n else none

/-- The double nearest to digits with a point somewhere among them, and an exponent
after the letter `e`. -/
def decimal? (negative : Bool) (cs : List Char) : Option Double :=
  let (whole, rest) := cs.span Char.isDigit
  let (fraction, rest) := match rest with
    | '.' :: rest => rest.span Char.isDigit
    | _ => ([], rest)
  let read (exponent : Int) : Option Double :=
    some (.ofScientific negative (Nat.ofDigitChars 10 (whole ++ fraction) 0)
      (exponent - fraction.length))
  if whole.isEmpty && fraction.isEmpty then none
  else
    match rest with
    | [] => read 0
    | c :: rest =>
      if c ≠ 'e' && c ≠ 'E' then none
      else
        let (down, ds) := sign rest
        if ds.isEmpty || !ds.all Char.isDigit then none
        else
          let exponent : Int := Nat.ofDigitChars 10 ds 0
          read (if down then -exponent else exponent)

/-- A double. Infinities and NaN are written by name, in letters of either case. -/
def double? (cs : List Char) : Option Double :=
  let (negative, rest) := sign cs
  match String.ofList (rest.map Char.toLower) with
  | "inf" | "infinity" => some (.infinity negative)
  | "nan" => some .nan
  | _ => decimal? negative rest

end TaskDialogue.Number
