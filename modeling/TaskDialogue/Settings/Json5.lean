import TaskDialogue.Number.Read
import TaskDialogue.Settings.Setting
import TaskDialogue.Text.Blank
import TaskDialogue.Text.Hex
import TaskDialogue.Text.Letter

/-!
# Settings in JSON written by hand

```
{ // comments, names without quotes, commas after the last field
  log: {level: 'warn'},
  numbers: [+1, .5, 0x1F, -Infinity, NaN], /* and texts \
                                             of several lines */
}
```

Whole numbers must fit into 64 bits, hexadecimal ones into 32 and without a sign.
-/
namespace TaskDialogue.Json5

def endsLine (c : Char) : Bool := c == '\n' || c == '\r' || c == '\u2028' || c == '\u2029'

def isSpace (c : Char) : Bool := c == '\uFEFF' || Text.isBlank c && c ≠ '\u0085'

/-- What follows a comment of several lines. -/
def commentEnd? : List Char → Option (List Char)
  | [] => none
  | '*' :: '/' :: rest => some rest
  | _ :: rest => commentEnd? rest

/-- Pass over blanks and comments. Each takes a character at least. -/
def skipWithin : (fuel : Nat) → List Char → List Char
  | 0, cs => cs
  | fuel + 1, cs =>
    match cs.dropWhile isSpace with
    | '/' :: '/' :: rest => skipWithin fuel (rest.dropWhile (!endsLine ·))
    | '/' :: '*' :: rest =>
      match commentEnd? rest with
      | some rest => skipWithin fuel rest
      | none => '/' :: '*' :: rest
    | rest => rest

/-- Pass over blanks and comments. A comment that does not end is none. -/
def skip (cs : List Char) : List Char := skipWithin (cs.length + 1) cs

/-! ### Texts and names -/

/-- The character of an escape of one letter. Letters without a meaning stand for
themselves, but digits have to be read otherwise. -/
def escaped? : Char → Option Char
  | 'b' => some '\x08'
  | 'f' => some '\x0c'
  | 'n' => some '\n'
  | 'r' => some '\r'
  | 't' => some '\t'
  | 'v' => some '\x0b'
  | '0' => some '\x00'
  | c => if c.isDigit || c == 'x' || c == 'u' || endsLine c then none else some c

/-- Pass over line ends that a backslash takes out. -/
def skipContinuations : List Char → List Char
  | '\\' :: '\r' :: '\n' :: rest => skipContinuations rest
  | '\\' :: c :: rest => if endsLine c then skipContinuations rest else '\\' :: c :: rest
  | cs => cs

/-- The character that two halves write. A bit that both of them set is set once, so the
halves of a character beyond the second plane may write an earlier one. -/
def joined? (high low : Nat) : Option Char :=
  Text.charOf? ((high - 0xD800) * 0x400 ||| (low - 0xDC00 + 0x10000))

/-- The character that four digits write, or two halves of four digits each. `lines` says
that a line end may be taken out between the halves. -/
def unicode? (lines : Bool) : List Char → Option (Char × List Char)
  | a :: b :: c :: d :: rest => do
    let n ← Text.readBase? 16 [a, b, c, d]
    if 0xD800 ≤ n && n < 0xDC00 then
      let rest := if lines then skipContinuations rest else rest
      let '\\' :: 'u' :: a :: b :: c :: d :: rest := rest | none
      let m ← Text.readBase? 16 [a, b, c, d]
      if m < 0xDC00 || 0xE000 ≤ m then none else return (← joined? n m, rest)
    else return (← Text.charOf? n, rest)
  | _ => none

/-- What an escape stands for, after its backslash: at a line end nothing. -/
def escape? : List Char → Option (List Char × List Char)
  | '\r' :: '\n' :: rest => some ([], rest)
  | 'x' :: a :: b :: rest => (Text.numbered? [a, b]).map ([·], rest)
  | 'u' :: rest => (unicode? true rest).map fun r => ([r.1], r.2)
  | c :: rest => if endsLine c then some ([], rest) else (escaped? c).map ([·], rest)
  | [] => none

/-- A text up to its quote. Each step takes a character at least. -/
def quoted? (quote : Char) : (fuel : Nat) → List Char → Option (List Char × List Char)
  | 0, _ => none
  | fuel + 1, cs =>
    match cs with
    | [] => none
    | '\\' :: rest => do
      let (x, rest) ← escape? rest
      let (cs, rest) ← quoted? quote fuel rest
      return (x ++ cs, rest)
    | c :: rest =>
      if c = quote then some ([], rest)
      else if endsLine c then none
      else (quoted? quote fuel rest).map fun r => (c :: r.1, r.2)

/-- A text in quotes of either kind. -/
def text? (cs : List Char) : Option (String × List Char) :=
  let read := match cs with
    | '"' :: rest => quoted? '"' (rest.length + 1) rest
    | '\'' :: rest => quoted? '\'' (rest.length + 1) rest
    | _ => none
  read.map fun r => (String.ofList r.1, r.2)

def startsName (c : Char) : Bool := Text.isLetter c || c == '$' || c == '_'

/-- The characters of a name, of which `first` is still to come. -/
def nameChars? (first : Bool) : (fuel : Nat) → List Char → Option (List Char × List Char)
  | 0, _ => none
  | fuel + 1, cs =>
    match cs with
    | '\\' :: 'u' :: rest => do
      let (c, rest) ← unicode? false rest
      let (cs, rest) ← nameChars? false fuel rest
      return (c :: cs, rest)
    | c :: rest =>
      if startsName c || !first && Text.isFollower c then
        (nameChars? false fuel rest).map fun r => (c :: r.1, r.2)
      else if first then none
      else some ([], c :: rest)
    | [] => if first then none else some ([], [])

def name? (cs : List Char) : Option (String × List Char) :=
  (text? cs).or ((nameChars? true (cs.length + 1) cs).map fun r => (String.ofList r.1, r.2))

/-! ### Numbers -/

/-- The exponent at the start of a text, if there is one. -/
def exponent (cs : List Char) : List Char × List Char :=
  let digits (mark rest : List Char) : List Char × List Char :=
    match rest.span Char.isDigit with
    | ([], _) => ([], cs)
    | (ds, rest) => (mark ++ ds, rest)
  match cs with
  | e :: s :: rest =>
    if e ≠ 'e' && e ≠ 'E' then ([], cs)
    else if s = '+' || s = '-' then digits [e, s] rest
    else digits [e] (s :: rest)
  | _ => ([], cs)

/-- The characters of a decimal number, which has a digit before or after its point and
starts with a zero only if no other digit follows before it. -/
def decimal? (cs : List Char) : Option (List Char × List Char) :=
  let whole := match cs with
    | '0' :: rest => (['0'], rest)
    | cs => cs.span Char.isDigit
  match whole with
  | (ds, '.' :: rest) =>
    let (fraction, rest) := rest.span Char.isDigit
    if ds.isEmpty && fraction.isEmpty then none
    else
      let (e, rest) := exponent rest
      some (ds ++ '.' :: fraction ++ e, rest)
  | ([], _) => none
  | (ds, rest) =>
    let (e, rest) := exponent rest
    some (ds ++ e, rest)

/-- A number without a sign, of which `negative` tells. -/
def unsigned? (sign : List Char) (cs : List Char) : Option (Setting × List Char) :=
  let hex := match cs with
    | '0' :: x :: rest =>
      let (ds, rest) := rest.span fun c => (Text.hexDigit? c).isSome
      if (x == 'x' || x == 'X') && !ds.isEmpty then some (ds, rest) else none
    | _ => none
  match hex with
  | some (ds, rest) => do
    let n ← Text.readBase? 16 ds
    if sign.isEmpty && n < UInt32.size then return (.int n, rest) else none
  | none =>
    match Text.dropPrefix? "Infinity".toList cs, Text.dropPrefix? "NaN".toList cs with
    | some rest, _ => if sign = ['+'] then none else some (.float (.infinity (sign = ['-'])), rest)
    | none, some rest => if sign = ['+'] then none else some (.float .nan, rest)
    | none, none => do
      let (digits, rest) ← decimal? cs
      if digits.all Char.isDigit then return (.int (← Number.whole? (sign ++ digits)), rest)
      else
        let x ← Number.double? (sign ++ digits)
        if x.isFinite then return (.float x, rest) else none

def number? (cs : List Char) : Option (Setting × List Char) :=
  match cs with
  | '+' :: rest => unsigned? ['+'] rest
  | '-' :: rest => unsigned? ['-'] rest
  | cs => unsigned? [] cs

/-! ### Values -/

mutual

/-- A value. Every step takes a character off the text or goes from a thing to its value,
so twice the length is fuel enough. -/
def value? : (fuel : Nat) → List Char → Option (Setting × List Char)
  | 0, _ => none
  | fuel + 1, cs =>
    let word (w : String) (s : Setting) : Option (Setting × List Char) :=
      (Text.dropPrefix? w.toList cs).map (s, ·)
    match cs with
    | '{' :: rest => (fields? fuel [] (skip rest)).map fun r => (.table r.1, r.2)
    | '[' :: rest => (items? fuel (skip rest)).map fun r => (.list r.1, r.2)
    | cs =>
      (word "null" .nothing).or <| (word "true" (.flag true)).or <|
        (word "false" (.flag false)).or <|
          ((text? cs).map fun r => (.text r.1, r.2)).or (number? cs)

/-- The items of a list up to its end. A comma may follow the last one. -/
def items? : (fuel : Nat) → List Char → Option (List Setting × List Char)
  | 0, _ => none
  | fuel + 1, cs =>
    match cs with
    | ']' :: rest => some ([], rest)
    | cs => do
      let (item, rest) ← value? fuel cs
      match skip rest with
      | ',' :: rest =>
        let (items, rest) ← items? fuel (skip rest)
        return (item :: items, rest)
      | ']' :: rest => return ([item], rest)
      | _ => none

/-- The fields of an object up to its end, added to those before. A comma may follow the
last one. -/
def fields? : (fuel : Nat) → (before : List (String × Setting)) → List Char →
    Option (List (String × Setting) × List Char)
  | 0, _, _ => none
  | fuel + 1, before, cs =>
    match cs with
    | '\x7d' :: rest => some (before, rest)
    | cs => do
      let (name, rest) ← name? cs
      let ':' :: rest := skip rest | none
      let (value, rest) ← value? fuel (skip rest)
      let fields := Setting.insert name value before
      match skip rest with
      | ',' :: rest => fields? fuel fields (skip rest)
      | '\x7d' :: rest => return (fields, rest)
      | _ => none

end

def parse? (text : String) : Option (List (String × Setting)) :=
  let cs := skip text.toList
  match value? (2 * cs.length + 2) cs with
  | some (.table entries, rest) => if (skip rest).isEmpty then some entries else none
  | _ => none

end TaskDialogue.Json5
