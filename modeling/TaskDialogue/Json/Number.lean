import TaskDialogue.Json.Fault
import TaskDialogue.Json.Basic

/-!
# Numbers in JSON text

The digits of a number are gathered in a significand of 64 bits. Further digits
of the integer part only raise the exponent and further digits of the fraction
are dropped. A fraction or an exponent gives a double: the significand is rounded
to one and then multiplied with, or divided by, a power of ten that is itself a
double. So the result can be off by a unit in the last place.
-/
namespace TaskDialogue.Json

def significandBound : Nat := UInt64.size

def digitValue (c : Char) : Nat := c.toNat - '0'.toNat

/-- Add digits to a significand while it stays below `significandBound`. The
first result counts them. -/
def takeDigits (count significand : Nat) : List Char → Nat × Nat × List Char
  | c :: rest =>
    if c.isDigit && significand * 10 + digitValue c < significandBound then
      takeDigits (count + 1) (significand * 10 + digitValue c) rest
    else (count, significand, c :: rest)
  | [] => (count, significand, [])

/-- A magnitude times `10 ^ exponent`. The power is a double of the
range `10⁰` to `10³⁰⁸`; below that range the greatest power divides first. -/
def scale : Nat → Double → Int → Except Fault Double
  | 0, x, _ => .ok x
  | fuel + 1, x, exponent =>
    if exponent.natAbs ≤ 308 then
      let power := Double.ofScientific false 1 exponent.natAbs
      if 0 ≤ exponent then
        let product := x.mulMagnitude power
        if product.isFinite then .ok product else .error .numberOutOfRange
      else .ok (x.divMagnitude power)
    else if x.units = 0 then .ok x
    else if 0 ≤ exponent then .error .numberOutOfRange
    else scale fuel (x.divMagnitude (.ofScientific false 1 308)) (exponent + 308)

/-- A double with its sign. Four divisions by `10³⁰⁸` leave zero. -/
def finishDouble (negative : Bool) (significand : Nat) (exponent : Int) (rest : List Char) :
    Except Fault (Json × List Char) :=
  (scale 4 (.ofNat significand) exponent).map fun magnitude =>
    (.float (if negative then magnitude.negate else magnitude), rest)

/-- One more than the greatest exponent that a number may write out. -/
def exponentBound : Nat := 0x80000000

/-- The exponent after its letter, added to the one that the digits gave. -/
def readExponent (negative : Bool) (significand : Nat) (exponent : Int) (cs : List Char) :
    Except Fault (Json × List Char) :=
  let (down, digits) := match cs with
    | '+' :: rest => (false, rest)
    | '-' :: rest => (true, rest)
    | _ => (false, cs)
  match digits with
  | [] => .error .eofValue
  | c :: _ =>
    if !c.isDigit then .error .invalidNumber else
    let run := digits.takeWhile Char.isDigit
    let rest := digits.dropWhile Char.isDigit
    let written := Nat.ofDigitChars 10 run 0
    if exponentBound ≤ written then
      if significand ≠ 0 && !down then .error .numberOutOfRange
      else .ok (.float (.zero negative), rest)
    else finishDouble negative significand (if down then exponent - written else exponent + written) rest

/-- The end of a number whose exponent may follow. -/
def readScale (negative : Bool) (significand : Nat) (exponent : Int) (cs : List Char) :
    Except Fault (Json × List Char) :=
  match cs with
  | 'e' :: rest => readExponent negative significand exponent rest
  | 'E' :: rest => readExponent negative significand exponent rest
  | _ => finishDouble negative significand exponent cs

def readFraction (negative : Bool) (significand : Nat) (exponent : Int) (cs : List Char) :
    Except Fault (Json × List Char) :=
  let (count, significand, rest) := takeDigits 0 significand cs
  match rest with
  | c :: _ =>
    if c.isDigit then
      readScale negative significand (exponent - count) (rest.dropWhile Char.isDigit)
    else if count = 0 then .error .invalidNumber
    else readScale negative significand (exponent - count) rest
  | [] => if count = 0 then .error .eofValue else readScale negative significand (exponent - count) rest

/-- A number without fraction and exponent. Zero has a sign only as a double, and
a negative number beyond 64 bits is a double. -/
def wholeNumber (negative : Bool) (significand : Nat) : Json :=
  if !negative then .int significand
  else if significand = 0 || !Number.fitsInt64 (-significand) then .float (Double.ofNat significand).negate
  else .int (-significand)

/-- What follows the digits of the integer part. -/
def readAfterInteger (negative : Bool) (significand : Nat) (cs : List Char) : Except Fault (Json × List Char) :=
  match cs with
  | '.' :: rest => readFraction negative significand 0 rest
  | 'e' :: rest => readExponent negative significand 0 rest
  | 'E' :: rest => readExponent negative significand 0 rest
  | _ => .ok (wholeNumber negative significand, cs)

/-- A number after its sign. -/
def readNumber (negative : Bool) (cs : List Char) : Except Fault (Json × List Char) :=
  match cs with
  | [] => .error .eofValue
  | '0' :: rest =>
    if rest.head?.any Char.isDigit then .error .invalidNumber
    else readAfterInteger negative 0 rest
  | c :: _ =>
    if !c.isDigit then .error .invalidNumber else
    let (_, significand, rest) := takeDigits 0 0 cs
    let excess := rest.takeWhile Char.isDigit
    if excess.isEmpty then readAfterInteger negative significand rest
    else
      let exponent : Int := excess.length
      match rest.dropWhile Char.isDigit with
      | '.' :: rest => readFraction negative significand exponent rest
      | rest => readScale negative significand exponent rest

/-- Pass over a number after its sign, whatever its size. -/
def skipNumber (cs : List Char) : Except Fault (List Char) :=
  let digits (cs : List Char) : Except Fault (List Char) :=
    if cs.head?.any Char.isDigit then .ok (cs.dropWhile Char.isDigit) else .error .invalidNumber
  let exponent (cs : List Char) : Except Fault (List Char) :=
    match cs with
    | '+' :: rest => digits rest
    | '-' :: rest => digits rest
    | _ => digits cs
  let afterDigits (cs : List Char) : Except Fault (List Char) :=
    match cs with
    | 'e' :: rest => exponent rest
    | 'E' :: rest => exponent rest
    | _ => .ok cs
  do
    let rest ← match cs with
      | '0' :: rest => if rest.head?.any Char.isDigit then .error .invalidNumber else .ok rest
      | _ => digits cs
    match rest with
    | '.' :: rest => afterDigits (← digits rest)
    | _ => afterDigits rest

end TaskDialogue.Json
