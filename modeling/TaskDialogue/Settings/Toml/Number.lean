import TaskDialogue.Number.Read
import TaskDialogue.Settings.Setting
import TaskDialogue.Settings.Toml.Scan

/-!
# Numbers and moments in TOML text

An underscore may stand between two digits. A number has no leading zeros, and a
whole one fits into 64 bits. Dates and times are checked against the calendar; they
become the text that writes them in full.
-/
namespace TaskDialogue.Toml

def moreDigits? (isDigit : Char → Bool) : List Char → Option (List Char × List Char)
  | '_' :: c :: rest =>
    if isDigit c then (moreDigits? isDigit rest).map fun r => (c :: r.1, r.2) else none
  | ['_'] => none
  | c :: rest =>
    if isDigit c then (moreDigits? isDigit rest).map fun r => (c :: r.1, r.2)
    else some ([], c :: rest)
  | [] => some ([], [])

def digits? (isDigit : Char → Bool) : List Char → Option (List Char × List Char)
  | c :: rest =>
    if isDigit c then (moreDigits? isDigit rest).map fun r => (c :: r.1, r.2) else none
  | [] => none

/-- The digits of a whole number, where zero stands alone. -/
def wholeDigits? : List Char → Option (List Char × List Char)
  | '0' :: rest => some (['0'], rest)
  | cs => digits? Char.isDigit cs

/-- A whole number that fits into 64 bits. -/
def whole? (n : Int) (rest : List Char) : Option (Setting × List Char) :=
  if Number.fitsInt64 n then some (.int n, rest) else none

/-- A number in another base, after its mark. -/
def based? (base : Nat) (cs : List Char) : Option (Setting × List Char) := do
  let (ds, rest) ← digits? (fun c => (Text.digit? base c).isSome) cs
  whole? (← Text.readBase? base ds) rest

def exponent? (cs : List Char) : Option (Int × List Char) := do
  let (down, rest) := Number.sign cs
  let (ds, rest) ← digits? Char.isDigit rest
  let n := Nat.ofDigitChars 10 ds 0
  some (if down then -n else n, rest)

/-- A double, unless it is beyond the greatest one. -/
def double? (negative : Bool) (ds : List Char) (exponent : Int) (rest : List Char) :
    Option (Setting × List Char) :=
  let x := Double.ofScientific negative (Nat.ofDigitChars 10 ds 0) exponent
  if x.isFinite || negative then some (.float x, rest) else none

/-- The end of a number: its exponent, or nothing. -/
def scaled? (negative : Bool) (ds : List Char) (places : Nat) (cs : List Char) :
    Option (Setting × List Char) :=
  match cs with
  | 'e' :: rest | 'E' :: rest => do
    let (exponent, rest) ← exponent? rest
    double? negative ds (exponent - places) rest
  | _ => double? negative ds (-places) cs

def number? (cs : List Char) : Option (Setting × List Char) :=
  match cs with
  | '0' :: 'x' :: rest => based? 16 rest
  | '0' :: 'o' :: rest => based? 8 rest
  | '0' :: 'b' :: rest => based? 2 rest
  | _ =>
    match Number.sign cs with
    | (negative, 'i' :: 'n' :: 'f' :: rest) => some (.float (.infinity negative), rest)
    | (_, 'n' :: 'a' :: 'n' :: rest) => some (.float .nan, rest)
    | (negative, rest) => do
      let (ds, rest) ← wholeDigits? rest
      match rest with
      | '.' :: rest =>
        let (fraction, rest) ← digits? Char.isDigit rest
        scaled? negative (ds ++ fraction) fraction.length rest
      | 'e' :: _ | 'E' :: _ => scaled? negative ds 0 rest
      | _ =>
        let n := Nat.ofDigitChars 10 ds 0
        whole? (if negative then -n else n) rest

/-- Two digits that write a number of a range. -/
def pair? (least greatest : Nat) : List Char → Option (List Char × List Char)
  | a :: b :: rest =>
    let n := Nat.ofDigitChars 10 [a, b] 0
    if a.isDigit && b.isDigit && least ≤ n && n ≤ greatest then some ([a, b], rest) else none
  | _ => none

def daysIn (year month : Nat) : Nat :=
  if month = 2 then
    if year % 4 = 0 && (year % 100 ≠ 0 || year % 400 = 0) then 29 else 28
  else if [4, 6, 9, 11].contains month then 30 else 31

def date? : List Char → Option (List Char × List Char)
  | a :: b :: c :: d :: '-' :: rest => do
    if ! [a, b, c, d].all Char.isDigit then none else
    let (month, rest) ← pair? 1 12 rest
    match rest with
    | '-' :: rest =>
      let days := daysIn (Nat.ofDigitChars 10 [a, b, c, d] 0) (Nat.ofDigitChars 10 month 0)
      let (day, rest) ← pair? 1 days rest
      some ([a, b, c, d, '-'] ++ month ++ '-' :: day, rest)
    | _ => none
  | _ => none

/-- A fraction of a second with its point, up to nine digits and without the zeros at
its end. -/
def fraction (ds : List Char) : List Char :=
  match ((ds.take 9).reverse.dropWhile (· == '0')).reverse with
  | [] => []
  | ds => '.' :: ds

/-- A time of day up to an hour. A minute may have a leap second. -/
def time? (lastHour : Nat) (cs : List Char) : Option (List Char × List Char) := do
  let (hour, rest) ← pair? 0 lastHour cs
  let ':' :: rest := rest | none
  let (minute, rest) ← pair? 0 59 rest
  let ':' :: rest := rest | none
  let (second, rest) ← pair? 0 60 rest
  let whole := hour ++ ':' :: minute ++ ':' :: second
  match rest with
  | '.' :: rest =>
    match rest.span Char.isDigit with
    | ([], _) => some (whole, '.' :: rest)
    | (ds, rest) => some (whole ++ fraction ds, rest)
  | _ => some (whole, rest)

def twoDigits (n : Nat) : List Char :=
  [Nat.digitChar (n / 10), Nat.digitChar (n % 10)]

/-- The distance from the zero meridian after a time, if it is given: hours and minutes, a
day at most. No distance is written with a plus sign. -/
def offset? (lastHour lastMinute : Nat) (cs : List Char) : Option (List Char × List Char) :=
  match cs with
  | 'Z' :: rest | 'z' :: rest => some (['Z'], rest)
  | '+' :: rest | '-' :: rest => do
    let (hour, rest) ← pair? 0 lastHour rest
    let ':' :: rest := rest | none
    let (minute, rest) ← pair? 0 lastMinute rest
    let total := 60 * Nat.ofDigitChars 10 hour 0 + Nat.ofDigitChars 10 minute 0
    if 24 * 60 < total then none else
    let sign := if cs.head? = some '-' && total ≠ 0 then '-' else '+'
    some (sign :: twoDigits (total / 60) ++ ':' :: twoDigits (total % 60), rest)
  | _ => some ([], cs)

/-- Whether a character may stand between a date and a time. -/
def joinsTime (c : Char) : Bool := c == 'T' || c == 't' || c == ' '

/-- A date, a time, or both with a `T` or a blank between them. -/
def moment? (cs : List Char) : Option (List Char × List Char) :=
  match date? cs with
  | none => time? 23 cs
  | some (date, rest) =>
    match rest with
    | c :: after =>
      if joinsTime c then
        match time? 23 after with
        | none => some (date, rest)
        | some (time, rest) =>
          (offset? 23 59 rest).map fun r => (date ++ 'T' :: time ++ r.1, r.2)
      else some (date, rest)
    | [] => some (date, [])

/-- The moment that all of a text writes. Here a day may have an hour more, and a distance
may be in any hours and minutes. -/
def momentOf? (cs : List Char) : Option (List Char) :=
  match date? cs with
  | none => do
    let (time, []) ← time? 24 cs | none
    return time
  | some (date, []) => some date
  | some (date, c :: rest) => do
    if !joinsTime c then none else
    let (time, rest) ← time? 24 rest
    let (offset, []) ← offset? 99 99 rest | none
    return date ++ 'T' :: time ++ offset

end TaskDialogue.Toml
