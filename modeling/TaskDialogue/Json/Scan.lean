import TaskDialogue.Json.Number
import TaskDialogue.Text.Bytes
import TaskDialogue.Text.Hex

/-!
# Tokens of JSON text

Readers for blanks, words, strings and the punctuation between items and
fields. A reader takes its token off the front of the text.
-/
namespace TaskDialogue.Json

/-- The blanks that may stand between tokens. -/
def isSpace (c : Char) : Bool := c == ' ' || c == '\n' || c == '\t' || c == '\r'

def skipSpace (cs : List Char) : List Char := cs.dropWhile isSpace

/-- The rest of a word whose first letter was seen. -/
def readWord : (letters cs : List Char) → Except Fault (List Char)
  | [], cs => .ok cs
  | _ :: _, [] => .error .eofValue
  | l :: ls, c :: cs => if l = c then readWord ls cs else .error .expectedIdent

/-- The number that four hexadecimal digits denote. Fewer than four bytes end the
text too early. -/
def readHex (cs : List Char) : Except Fault (Nat × List Char) :=
  match cs with
  | a :: b :: c :: d :: rest =>
    match Text.readBase? 16 [a, b, c, d] with
    | some n => .ok (n, rest)
    | none => .error .invalidEscape
  | _ => if Text.byteLength cs < 4 then .error .eofString else .error .invalidEscape

/-- The character of an escape, after its backslash. Characters beyond the first
plane are written as two halves. -/
def readEscape : List Char → Except Fault (Char × List Char)
  | [] => .error .eofString
  | '"' :: rest => .ok ('"', rest)
  | '\\' :: rest => .ok ('\\', rest)
  | '/' :: rest => .ok ('/', rest)
  | 'b' :: rest => .ok ('\x08', rest)
  | 'f' :: rest => .ok ('\x0c', rest)
  | 'n' :: rest => .ok ('\n', rest)
  | 'r' :: rest => .ok ('\r', rest)
  | 't' :: rest => .ok ('\t', rest)
  | 'u' :: rest =>
    match readHex rest with
    | .error e => .error e
    | .ok (n, rest) =>
      if 0xDC00 ≤ n ∧ n ≤ 0xDFFF then .error .loneSurrogate
      else if n < 0xD800 ∨ 0xDBFF < n then .ok (Char.ofNat n, rest)
      else match rest with
        | [] => .error .eofString
        | ['\\'] => .error .eofString
        | '\\' :: 'u' :: rest =>
          match readHex rest with
          | .error e => .error e
          | .ok (low, rest) =>
            if low < 0xDC00 ∨ 0xDFFF < low then .error .loneSurrogate
            else .ok (Char.ofNat ((n - 0xD800) * 0x400 + (low - 0xDC00) + 0x10000), rest)
        | _ => .error .endOfHexEscape
  | _ => .error .invalidEscape

theorem readHex_length {cs rest : List Char} {n : Nat} (h : readHex cs = .ok (n, rest)) :
    rest.length < cs.length := by
  unfold readHex at h
  split at h
  · split at h <;> simp at h
    obtain ⟨-, rfl⟩ := h
    simp only [List.length_cons]; omega
  · split at h <;> simp at h

theorem readEscape_length {cs rest : List Char} {c : Char} (h : readEscape cs = .ok (c, rest)) :
    rest.length < cs.length := by
  unfold readEscape at h
  split at h <;> try (simp at h; done)
  all_goals try (simp only [Except.ok.injEq, Prod.mk.injEq] at h; obtain ⟨-, rfl⟩ := h; simp)
  split at h
  · simp at h
  · rename_i first after hfirst
    have hlen := readHex_length hfirst
    split at h
    · simp at h
    split at h
    · simp only [Except.ok.injEq, Prod.mk.injEq] at h
      obtain ⟨-, rfl⟩ := h
      simp only [List.length_cons]; omega
    split at h <;> try simp at h
    split at h
    · simp at h
    · rename_i hlow
      have := readHex_length hlow
      split at h
      · simp at h
      · simp only [Except.ok.injEq, Prod.mk.injEq] at h
        obtain ⟨-, rfl⟩ := h
        simp only [List.length_cons] at hlen ⊢; omega

/-- The characters of a string, after its opening quote. -/
def readChars (cs : List Char) : Except Fault (List Char × List Char) :=
  match cs with
  | [] => .error .eofString
  | c :: rest =>
    if c = '"' then .ok ([], rest)
    else if c = '\\' then
      match h : readEscape rest with
      | .error e => .error e
      | .ok (c, rest') =>
        have : rest'.length < rest.length := readEscape_length h
        (readChars rest').map fun r => (c :: r.1, r.2)
    else if c.toNat < 0x20 then .error .controlCharacter
    else (readChars rest).map fun r => (c :: r.1, r.2)
termination_by cs.length

/-- A string, after its opening quote. -/
def readString (cs : List Char) : Except Fault (String × List Char) :=
  (readChars cs).map fun r => (String.ofList r.1, r.2)

/-- Pass over a string, after its opening quote. Only the form of its escapes is
checked. -/
def skipString : List Char → Except Fault (List Char)
  | [] => .error .eofString
  | '"' :: rest => .ok rest
  | '\\' :: rest =>
    match rest with
    | [] => .error .eofString
    | 'u' :: a :: b :: c :: d :: rest =>
      if (Text.readBase? 16 [a, b, c, d]).isSome then skipString rest
      else .error .invalidEscape
    | 'u' :: rest =>
      if Text.byteLength rest < 4 then .error .eofString else .error .invalidEscape
    | c :: rest => if "\"\\/bfnrt".toList.contains c then skipString rest else .error .invalidEscape
  | c :: rest => if c.toNat < 0x20 then .error .controlCharacter else skipString rest

/-- Where the next item of a list starts, or `none` at the closing bracket. -/
def itemAhead? (first : Bool) (cs : List Char) : Except Fault (Option (List Char)) :=
  match skipSpace cs with
  | [] => .error .eofList
  | ']' :: _ => .ok none
  | c :: rest =>
    if first then .ok (some (c :: rest))
    else if c = ',' then
      match skipSpace rest with
      | [] => .error .eofValue
      | ']' :: _ => .error .trailingComma
      | rest => .ok (some rest)
    else .error .expectedListEnd

/-- What follows the closing bracket, when no item is expected any more. -/
def closeList (cs : List Char) : Except Fault (List Char) :=
  match skipSpace cs with
  | [] => .error .eofList
  | ']' :: rest => .ok rest
  | ',' :: rest =>
    if (skipSpace rest).head? = some ']' then .error .trailingComma else .error .trailingCharacters
  | _ => .error .trailingCharacters

/-- The next key of an object, or `none` at the closing brace. -/
def keyAhead? (first : Bool) (cs : List Char) : Except Fault (Option (String × List Char)) :=
  match skipSpace cs with
  | [] => .error .eofObject
  | '\x7d' :: _ => .ok none
  | c :: rest =>
    if first then
      if c = '"' then (readString rest).map some else .error .keyNotString
    else if c = ',' then
      match skipSpace rest with
      | [] => .error .eofValue
      | '"' :: rest => (readString rest).map some
      | '\x7d' :: _ => .error .trailingComma
      | _ => .error .keyNotString
    else .error .expectedObjectEnd

def readColon (cs : List Char) : Except Fault (List Char) :=
  match skipSpace cs with
  | [] => .error .eofObject
  | ':' :: rest => .ok rest
  | _ => .error .expectedColon

def closeObject (cs : List Char) : Except Fault (List Char) :=
  match skipSpace cs with
  | [] => .error .eofObject
  | '\x7d' :: rest => .ok rest
  | ',' :: _ => .error .trailingComma
  | _ => .error .trailingCharacters

/-- Nothing but blanks may follow a document. -/
def endOfText (cs : List Char) : Except Fault Unit :=
  if (skipSpace cs).isEmpty then .ok () else .error .trailingCharacters

end TaskDialogue.Json
