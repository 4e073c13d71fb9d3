/-!
# Digits of other bases

Numbers in bases up to sixteen, and characters that are written by their number.
-/
namespace TaskDialogue.Text

/-- The value of a hexadecimal digit. Letters may be of either case. -/
def hexDigit? (c : Char) : Option Nat :=
  if c.isDigit then some (c.toNat - '0'.toNat)
  else if 'a' ≤ c && c ≤ 'f' then some (c.toNat - 'a'.toNat + 10)
  else if 'A' ≤ c && c ≤ 'F' then some (c.toNat - 'A'.toNat + 10)
  else none

def digit? (base : Nat) (c : Char) : Option Nat := (hexDigit? c).filter (· < base)

/-- The number that digits of a base write. Without digits there is none. -/
def readBase? (base : Nat) (cs : List Char) : Option Nat :=
  if cs.isEmpty then none
  else return (← cs.mapM (digit? base)).foldl (fun n d => base * n + d) 0

def charOf? (n : Nat) : Option Char := if Nat.isValidChar n then some (Char.ofNat n) else none

/-- The character whose number hexadecimal digits write. -/
def numbered? (cs : List Char) : Option Char := (readBase? 16 cs).bind charOf?

end TaskDialogue.Text
