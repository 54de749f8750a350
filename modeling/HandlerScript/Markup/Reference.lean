import HandlerScript.Number.Decimal
import HandlerScript.Number.Hexadecimal

/-! Character references in markup text.

    A reference is an ampersand, a name or a number, and a semicolon. What is no reference stays as
    it is written, and the character that a reference stands for is not read again. -/

namespace HandlerScript.Markup

/-- The character with a given code point. -/
def charOf? (n : Nat) : Option Char :=
  if n.isValidChar then some (Char.ofNat n) else none

/-- A number with an optional plus sign. -/
def unsigned? (read? : List Char → Option Nat) : List Char → Option Nat
  | '+' :: cs => read? cs
  | cs => read? cs

/-- The character that the text between ampersand and semicolon stands for. -/
def referent? (name : List Char) : Option Char :=
  match String.ofList name with
  | "amp" => some '&'
  | "lt" => some '<'
  | "gt" => some '>'
  | "quot" => some '"'
  | "apos" => some '\''
  | _ =>
    match name with
    | '#' :: 'x' :: code => (unsigned? Hexadecimal.nat? code).bind charOf?
    | '#' :: 'X' :: code => (unsigned? Hexadecimal.nat? code).bind charOf?
    | '#' :: code => (unsigned? Decimal.nat? code).bind charOf?
    | _ => none

/-- The reference behind an ampersand: its character and its length with the semicolon. -/
def reference? (cs : List Char) : Option (Char × Nat) :=
  let (name, rest) := cs.span (· != ';')
  if rest.isEmpty then none else (referent? name).map fun c => (c, name.length + 1)

/-- Replaces references. `skip` counts the characters of a reference that are still to be passed
    over. -/
def decodeFrom : Nat → List Char → List Char
  | _, [] => []
  | skip + 1, _ :: cs => decodeFrom skip cs
  | 0, c :: cs =>
    if c = '&' then
      match reference? cs with
      | some (r, n) => r :: decodeFrom n cs
      | none => c :: decodeFrom 0 cs
    else c :: decodeFrom 0 cs

/-- The text that markup text stands for. -/
def decode (cs : List Char) : List Char := decodeFrom 0 cs

def decodeText (s : String) : String := String.ofList (decode s.toList)

end HandlerScript.Markup
