import HandlerScript.Number.Decimal
import HandlerScript.Text.Bytes

/-! Failures of reading JSON, and their places.

    A reader works on the characters that are left. A failure therefore says how many bytes were
    left when it was noticed, and its line and column follow from the source: columns count bytes, a
    line feed begins a new line. -/

namespace HandlerScript.Json

/-- What stands where something else was expected. -/
inductive Found where
  | null
  | bool (b : Bool)
  | integer (n : Int)
  | number (text : String)
  | string (quoted : String)
  | sequence
  | map
  deriving DecidableEq, Repr

inductive Cause where
  | endInValue
  | endInString
  | endInObject
  | endInList
  | noValue
  | noWord
  | noColon
  | noListEnd
  | noObjectEnd
  | trailingComma
  | trailingCharacters
  | keyNotString
  | badNumber
  | numberOutOfRange
  | badEscape
  | loneSurrogate
  | endInEscape
  | controlCharacter
  | tooDeep
  | wrongType (found : Found) (expected : String)
  | wrongLength (length : Nat) (expected : String)
  | missingField (name : String)
  | duplicateField (name : String)
  deriving DecidableEq, Repr

def Found.message : Found → String
  | .null => "null"
  | .bool b => "boolean `" ++ (if b then "true" else "false") ++ "`"
  | .integer n => "integer `" ++ Decimal.intText n ++ "`"
  | .number text => "floating point `" ++ text ++ "`"
  | .string quoted => "string " ++ quoted
  | .sequence => "sequence"
  | .map => "map"

def Cause.message : Cause → String
  | .endInValue => "EOF while parsing a value"
  | .endInString => "EOF while parsing a string"
  | .endInObject => "EOF while parsing an object"
  | .endInList => "EOF while parsing a list"
  | .noValue => "expected value"
  | .noWord => "expected ident"
  | .noColon => "expected `:`"
  | .noListEnd => "expected `,` or `]`"
  | .noObjectEnd => "expected `,` or `\x7d`"
  | .trailingComma => "trailing comma"
  | .trailingCharacters => "trailing characters"
  | .keyNotString => "key must be a string"
  | .badNumber => "invalid number"
  | .numberOutOfRange => "number out of range"
  | .badEscape => "invalid escape"
  | .loneSurrogate => "lone leading surrogate in hex escape"
  | .endInEscape => "unexpected end of hex escape"
  | .controlCharacter => "control character (\\u0000-\\u001F) found while parsing a string"
  | .tooDeep => "recursion limit exceeded"
  | .wrongType found expected => "invalid type: " ++ found.message ++ ", expected " ++ expected
  | .wrongLength n expected => "invalid length " ++ Decimal.natText n ++ ", expected " ++ expected
  | .missingField name => "missing field `" ++ name ++ "`"
  | .duplicateField name => "duplicate field `" ++ name ++ "`"

/-- A cause, and the number of bytes that were left when it was noticed. -/
structure Failure where
  cause : Cause
  left : Nat
  deriving DecidableEq, Repr

/-- A line and a column, counted in bytes from the start of the line. -/
structure Position where
  line : Nat
  column : Nat
  deriving DecidableEq, Repr

/-- The position after a number of bytes; it may lie inside a character. -/
def Position.advance : Position → Nat → List Char → Position
  | p, _, [] => p
  | p, n, c :: cs =>
    if n < c.utf8Size then { p with column := p.column + n }
    else if c = '\n' then advance ⟨p.line + 1, 0⟩ (n - 1) cs
    else advance { p with column := p.column + c.utf8Size } (n - c.utf8Size) cs

/-- Where in the source a failure was noticed. -/
def Failure.position (f : Failure) (source : List Char) : Position :=
  Position.advance ⟨1, 0⟩ (Text.byteCount source - f.left) source

/-- The failure in words, with its place. -/
def Failure.message (f : Failure) (source : List Char) : String :=
  let p := f.position source
  f.cause.message ++ " at line " ++ Decimal.natText p.line ++ " column " ++ Decimal.natText p.column

/-- Readers take what is left of a text, and give a result with what is left after it or fail. -/
abbrev Read := Except Failure

/-- A failure before the characters that are left. -/
def failHere {α : Type} (cause : Cause) (rest : List Char) : Except Failure α :=
  .error ⟨cause, Text.byteCount rest⟩

/-- A failure upon the next byte. -/
def failNext {α : Type} (cause : Cause) (rest : List Char) : Except Failure α :=
  .error ⟨cause, Text.byteCount rest - 1⟩

end HandlerScript.Json
