import HandlerScript.Number.Shortest
import HandlerScript.Text.Blank
import HandlerScript.Text.Letters

/-! Scalars: the values of variables and of plain widget properties.

    Coercions are total. Text that is no numeral counts as zero; empty text, `0` and `false` count as
    false; every scalar has a text. -/

namespace HandlerScript

inductive Scalar where
  | bool (b : Bool)
  | int (n : Int64)
  | float (x : Float)
  | str (s : String)

namespace Scalar

/-- The number that a text stands for, zero if it is no numeral. -/
def numberOf (text : String) : Float :=
  (Decimal.float? (Text.trimmed text.toList)).getD 0.0

/-- Whether a text counts as true. -/
def textTruth (text : String) : Bool :=
  let t := Text.trim text
  !(t.isEmpty || t == "0" || Text.sameLetters t "false")

/-- The characters that numerals with digits are made of. -/
def isNumeralChar (c : Char) : Bool :=
  Decimal.isDigit c || c == '.' || c == '-' || c == '+' || c == 'e' || c == 'E'

/-- The most specific scalar that a text spells: a truth value, an integer of 64 bits, a number
    written with digits, and else the text itself with its blanks. -/
def infer (text : String) : Scalar :=
  let t := Text.trim text
  if Text.sameLetters t "true" then .bool true
  else if Text.sameLetters t "false" then .bool false
  else match Decimal.int64? t.toList with
    | some n => .int n
    | none =>
      match (if t.toList.all isNumeralChar then Decimal.float? t.toList else none) with
      | some x => .float x
      | none => .str text

/-- The kinds that a declaration can ask for. -/
inductive Kind where
  | integer
  | number
  | truth
  | text
  deriving DecidableEq, Repr

def Kind.ofName? (name : String) : Option Kind :=
  match Text.lower (Text.trim name) with
  | "int" | "integer" | "long" => some .integer
  | "float" | "double" | "number" | "decimal" => some .number
  | "bool" | "boolean" => some .truth
  | "string" | "text" => some .text
  | _ => none

/-- The scalar of a given kind that a text stands for. An integer beyond 64 bits or with a fraction
    is read as a number and cut. -/
def ofKind (kind : Kind) (text : String) : Scalar :=
  match kind with
  | .integer => .int ((Decimal.int64? (Text.trimmed text.toList)).getD
      (Binary64.toInt64 (numberOf text)))
  | .number => .float (numberOf text)
  | .truth => .bool (textTruth text)
  | .text => .str text

/-- The scalar of a named kind; an unknown name leaves the choice to the text. -/
def typed (text kindName : String) : Scalar :=
  match Kind.ofName? kindName with
  | some kind => ofKind kind text
  | none => infer text

/-- A scalar as a number. -/
def toFloat : Scalar → Float
  | .bool b => if b then 1.0 else 0.0
  | .int n => Binary64.ofInt n.toInt
  | .float x => x
  | .str s => numberOf s

/-- Whether a scalar counts as true. -/
def truth : Scalar → Bool
  | .bool b => b
  | .int n => n != 0
  | .float x => x != 0.0
  | .str s => textTruth s

/-- The text of a scalar. -/
def text : Scalar → String
  | .bool b => if b then "true" else "false"
  | .int n => Decimal.intText n.toInt
  | .float x => Decimal.plainText x
  | .str s => s

def kindName : Scalar → String
  | .bool _ => "bool"
  | .int _ => "int"
  | .float _ => "float"
  | .str _ => "string"

/-- Equality of values within a kind, with numbers compared as numbers. -/
def same : Scalar → Scalar → Bool
  | .bool a, .bool b => a == b
  | .int a, .int b => a == b
  | .float a, .float b => a == b
  | .str a, .str b => a == b
  | _, _ => false

end Scalar

end HandlerScript
