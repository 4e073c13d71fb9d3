/-!
# Why JSON text is refused

Faults of the text and faults of the data it holds stand in one type, since they
are found in reading order and the first one is reported.
-/
namespace TaskDialogue.Json

/-- Why JSON cannot be read as a value, or as a value of some shape. -/
inductive Fault where
  | eofValue
  | eofObject
  | eofList
  | eofString
  | expectedValue
  | expectedIdent
  | expectedColon
  | expectedListEnd
  | expectedObjectEnd
  | trailingComma
  | trailingCharacters
  | keyNotString
  | invalidNumber
  | numberOutOfRange
  | invalidEscape
  | loneSurrogate
  | endOfHexEscape
  | controlCharacter
  | tooDeep
  | missingField (name : String)
  | duplicateField (name : String)
  | invalidType (found expected : String)
  | invalidLength (length : Nat) (expected : String)
deriving DecidableEq, Repr

/-- The text of a fault, without its position. -/
def Fault.message : Fault → String
  | eofValue => "EOF while parsing a value"
  | eofObject => "EOF while parsing an object"
  | eofList => "EOF while parsing a list"
  | eofString => "EOF while parsing a string"
  | expectedValue => "expected value"
  | expectedIdent => "expected ident"
  | expectedColon => "expected `:`"
  | expectedListEnd => "expected `,` or `]`"
  | expectedObjectEnd => "expected `,` or `\x7d`"
  | trailingComma => "trailing comma"
  | trailingCharacters => "trailing characters"
  | keyNotString => "key must be a string"
  | invalidNumber => "invalid number"
  | numberOutOfRange => "number out of range"
  | invalidEscape => "invalid escape"
  | loneSurrogate => "lone leading surrogate in hex escape"
  | endOfHexEscape => "unexpected end of hex escape"
  | controlCharacter => "control character (\\u0000-\\u001F) found while parsing a string"
  | tooDeep => "recursion limit exceeded"
  | missingField name => "missing field `" ++ name ++ "`"
  | duplicateField name => "duplicate field `" ++ name ++ "`"
  | invalidType found expected => "invalid type: " ++ found ++ ", expected " ++ expected
  | invalidLength length expected =>
    "invalid length " ++ toString length ++ ", expected " ++ expected

end TaskDialogue.Json
