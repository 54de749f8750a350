import HandlerScript.Number.Binary64
import HandlerScript.Number.Word

/-! Decimal numerals: reading integers and numbers, writing integers.

    A numeral is an optional sign, digits with at most one point among them, and an optional
    exponent; the words `inf`, `infinity` and `nan` are numerals too, in any letter case. Nothing
    else is: no blanks, no digit separators, no other bases. -/

namespace HandlerScript.Decimal

/-- The value of a decimal digit. -/
def digit? (c : Char) : Option Nat :=
  if '0' ≤ c ∧ c ≤ '9' then some (c.toNat - 48) else none

def isDigit (c : Char) : Bool := (digit? c).isSome

/-- The natural that digits spell; other characters do not occur in its uses. -/
def ofDigits (cs : List Char) : Nat :=
  cs.foldl (fun n c => 10 * n + (c.toNat - 48)) 0

/-- The digits of a natural, most significant first. -/
def digits (n : Nat) : List Char :=
  if n < 10 then [Char.ofNat (48 + n)] else digits (n / 10) ++ [Char.ofNat (48 + n % 10)]

/-- The decimal text of an integer. -/
def intDigits (n : Int) : List Char :=
  if n < 0 then '-' :: digits n.natAbs else digits n.natAbs

def natText (n : Nat) : String := String.ofList (digits n)

def intText (n : Int) : String := String.ofList (intDigits n)

/-- The sign at the front of a numeral, and the rest. -/
def sign : List Char → Bool × List Char
  | '-' :: cs => (true, cs)
  | '+' :: cs => (false, cs)
  | cs => (false, cs)

/-- A natural: one digit or more and nothing else. -/
def nat? (cs : List Char) : Option Nat :=
  if !cs.isEmpty && cs.all isDigit then some (ofDigits cs) else none

/-- A natural that may carry a plus sign. -/
def signedNat? : List Char → Option Nat
  | '+' :: cs => nat? cs
  | cs => nat? cs

/-- An integer with an optional sign. -/
def int? (cs : List Char) : Option Int :=
  let (negative, rest) := sign cs
  (nat? rest).map fun n => if negative then -(n : Int) else n

/-- An integer of 64 bits with an optional sign. -/
def int64? (cs : List Char) : Option Int64 :=
  (int? cs).bind Word.ofInt?

/-- The number nearest to `± m * 10 ^ e`. Exponents far outside the range of numbers are answered
    without computing the power. -/
def nearest (negative : Bool) (m : Nat) (e : Int) : Float :=
  if m = 0 then Binary64.zero negative
  else if 400 < e then Binary64.infinity negative
  else if e < -(401 + m.log2 : Int) then Binary64.zero negative
  else Binary64.ofQuotient negative (m * Nat.pow 10 e.toNat) (Nat.pow 10 (-e).toNat)

/-- The exponent part of a numeral, `0` where there is none. -/
def exponent? : List Char → Option Int
  | [] => some 0
  | c :: cs => if c = 'e' ∨ c = 'E' then int? cs else none

/-- The words for numbers without digits. -/
def word? (negative : Bool) (cs : List Char) : Option Float :=
  let w := cs.map Char.toLower
  if w = "inf".toList ∨ w = "infinity".toList then some (Binary64.infinity negative)
  else if w = "nan".toList then some Binary64.nan
  else none

/-- The digits after the point at the front of a text, and the rest. -/
def fraction : List Char → List Char × List Char
  | '.' :: cs => cs.span isDigit
  | cs => ([], cs)

/-- The number that a numeral denotes, correctly rounded. -/
def float? (cs : List Char) : Option Float :=
  let (negative, body) := sign cs
  let (whole, rest) := body.span isDigit
  let (frac, rest) := fraction rest
  if whole.isEmpty && frac.isEmpty then word? negative body
  else (exponent? rest).map fun e =>
    nearest negative (ofDigits (whole ++ frac)) (e - frac.length)

end HandlerScript.Decimal
