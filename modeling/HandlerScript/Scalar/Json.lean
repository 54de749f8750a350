import HandlerScript.Json.Value
import HandlerScript.Scalar.Basic

/-! The JSON form of scalars.

    A scalar is written as the JSON value of its kind. Reading has only the JSON text to go by: an
    integer of 64 bits is an integer, any other number a number. -/

namespace HandlerScript.Scalar

def toJson : Scalar → Json.Value
  | .bool b => .bool b
  | .int n => .number (.int n.toInt)
  | .float x => .number (.float x)
  | .str s => .string s

/-- The scalar that a JSON value stands for. -/
def ofJson? : Json.Value → Option Scalar
  | .bool b => some (.bool b)
  | .number (.int n) =>
    match Word.ofInt? n with
    | some w => some (.int w)
    | none => some (.float (Binary64.ofInt n))
  | .number (.float x) => some (.float x)
  | .string s => some (.str s)
  | _ => none

/-- Why a text is not the JSON form of a scalar. -/
inductive ReadError where
  | json (failure : Json.Failure)
  | noScalar

def ReadError.message (source : List Char) : ReadError → String
  | .json failure => failure.message source
  | .noScalar => "data did not match any variant of untagged enum Scalar"

/-- The scalar that a JSON text denotes. -/
def readJson (source : List Char) : Except ReadError Scalar :=
  match Json.Value.read (2 * source.length + 2) Json.depthLimit source with
  | .error e => .error (.json e)
  | .ok (value, rest) =>
    match ofJson? value with
    | none => .error .noScalar
    | some s =>
      match Json.finish rest with
      | .ok _ => .ok s
      | .error e => .error (.json e)

end HandlerScript.Scalar
