import HandlerScript.Scalar.Basic
import HandlerScript.Text.Casing
import HandlerScript.Text.Pieces

/-! Built-in functions.

    Functions of numbers take comma-separated arguments, and functions of text the whole argument
    text. Every result is a text. -/

namespace HandlerScript

inductive Builtin where
  | abs
  | round
  | floor
  | ceil
  | sqrt
  | min
  | max
  | pow
  | len
  | upper
  | lower
  | trim
  | concat
  deriving DecidableEq, Repr

namespace Builtin

/-- The function that a key names. -/
def ofKey? (key : String) : Option Builtin :=
  match Text.lower (Text.trim key) with
  | "abs" => some .abs
  | "round" => some .round
  | "floor" => some .floor
  | "ceil" | "ceiling" => some .ceil
  | "sqrt" => some .sqrt
  | "min" => some .min
  | "max" => some .max
  | "pow" | "power" => some .pow
  | "len" | "length" => some .len
  | "upper" | "toupper" => some .upper
  | "lower" | "tolower" => some .lower
  | "trim" => some .trim
  | "concat" => some .concat
  | _ => none

/-- A number rounded to a number of places between none and fifteen, halves away from zero. -/
def roundTo (x places : Float) : Float :=
  let scale := Decimal.nearest false 1 (Binary64.truncate 0 15 places)
  Binary64.toIntegral .halfAway (x * scale) / scale

/-- The result of a function. -/
def apply (f : Builtin) (args : String) : String :=
  let numbers := (Text.items args).map Scalar.numberOf
  let first := numbers.headD 0.0
  match f with
  | .abs => Decimal.plainText (Binary64.abs first)
  | .round => Decimal.plainText (roundTo first (numbers.getD 1 0.0))
  | .floor => Decimal.plainText (Binary64.toIntegral .floor first)
  | .ceil => Decimal.plainText (Binary64.toIntegral .ceiling first)
  | .sqrt => Decimal.plainText first.sqrt
  | .min => Decimal.plainText (numbers.foldl (fun m x => if x < m then x else m) (Binary64.infinity false))
  | .max => Decimal.plainText (numbers.foldl (fun m x => if x > m then x else m) (Binary64.infinity true))
  | .pow => Decimal.plainText (first.pow (numbers.getD 1 1.0))
  | .len => Decimal.natText args.length
  | .upper => Text.toCapitals args
  | .lower => Text.toSmall args
  | .trim => Text.trim args
  | .concat => String.join (Text.items args)

/-- The result of the function that a key names. -/
def call? (key args : String) : Option String :=
  (ofKey? key).map (·.apply args)

end Builtin

end HandlerScript
