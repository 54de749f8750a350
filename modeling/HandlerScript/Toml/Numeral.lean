import HandlerScript.Moment.Basic
import HandlerScript.Number.Hexadecimal
import HandlerScript.Text.Pieces
import HandlerScript.Toml.Value

/-! Values in TOML that are written without quotes: truth values, numbers, dates and times.

    Underscores may stand between two digits. Whole numbers have 64 bits. A number that is too great
    is refused, but one that is too small for any number is the negative infinity. -/

namespace HandlerScript.Toml

/-- The digits of a numeral without the underscores between them. -/
def joined? (isDigit : Char → Bool) (cs : List Char) : Option (List Char) :=
  let pieces := Text.piecesAt '_' cs
  if pieces.all fun p => !p.isEmpty && p.all isDigit then some pieces.flatten else none

/-- A whole number of 64 bits. -/
def fitting? (n : Int) : Option Int :=
  (Word.ofInt? n).map (·.toInt)

/-- Decimal digits without a zero in front of others. -/
def wholeDigits? (cs : List Char) : Option (List Char) :=
  match joined? Decimal.isDigit cs with
  | some ('0' :: _ :: _) => none
  | ds? => ds?

/-- The natural that digits spell in a base. -/
def ofDigits? (base : Nat) (cs : List Char) : Option Nat := do
  let ds ← joined? (fun c => (Hexadecimal.digit? c).any (· < base)) cs
  return ds.foldl (fun n c => base * n + (Hexadecimal.digit? c).getD 0) 0

/-- A whole number: decimal with an optional sign, or of base sixteen, eight or two. -/
def int? : List Char → Option Int
  | '0' :: 'x' :: cs => do fitting? (← ofDigits? 16 cs)
  | '0' :: 'o' :: cs => do fitting? (← ofDigits? 8 cs)
  | '0' :: 'b' :: cs => do fitting? (← ofDigits? 2 cs)
  | cs => do
    let (negative, body) := Decimal.sign cs
    let n := Decimal.ofDigits (← wholeDigits? body)
    fitting? (if negative then -(n : Int) else n)

/-- The digits of an exponent, which may carry a sign. -/
def exponentDigits? (cs : List Char) : Option (List Char) := do
  let (negative, body) := Decimal.sign cs
  let ds ← joined? Decimal.isDigit body
  return if negative then '-' :: ds else ds

/-- A number with a fraction or an exponent or both. -/
def fractional? (negative : Bool) (cs : List Char) : Option Float := do
  let (mantissa, exponent) := cs.span fun c => c != 'e' && c != 'E'
  let (whole, fraction) := mantissa.span (· != '.')
  if exponent.isEmpty && fraction.isEmpty then none
  let whole ← wholeDigits? whole
  let fraction ← if fraction.isEmpty then some [] else joined? Decimal.isDigit (fraction.drop 1)
  let exponent ← if exponent.isEmpty then some ['0'] else exponentDigits? (exponent.drop 1)
  let e ← Decimal.int? exponent
  let x := Decimal.nearest negative (Decimal.ofDigits (whole ++ fraction)) (e - fraction.length)
  if x == Binary64.infinity false then none else some x

/-- A number, also one without digits. -/
def float? (cs : List Char) : Option Float :=
  let (negative, body) := Decimal.sign cs
  if body = "inf".toList then some (Binary64.infinity negative)
  else if body = "nan".toList then some Binary64.nan
  else fractional? negative body

/-! ### Dates and times -/

/-- Exactly two digits with a value between bounds, and the rest. -/
def twoDigits (least greatest : Nat) : List Char → Option (Nat × List Char)
  | a :: b :: rest => do
    let n ← Decimal.nat? [a, b]
    if least ≤ n && n ≤ greatest then some (n, rest) else none
  | _ => none

/-- The days of a month. -/
def daysIn (year month : Nat) : Nat :=
  if month = 2 then (if Date.isLeapYear year then 29 else 28)
  else if month = 4 ∨ month = 6 ∨ month = 9 ∨ month = 11 then 30
  else 31

/-- A date at the front of a text, and the rest. -/
def date (cs : List Char) : Option (List Char × List Char) := do
  let year ← Decimal.nat? (cs.take 4)
  if (cs.take 4).length != 4 then none
  let rest ← Text.after? ['-'] (cs.drop 4)
  let (month, rest) ← twoDigits 1 12 rest
  let rest ← Text.after? ['-'] rest
  let (_, rest) ← twoDigits 1 (daysIn year month) rest
  return (cs.take 10, rest)

/-- The digits of a fraction of a second: nine at most, and no zeros at the end. -/
def secondFraction (ds : List Char) : List Char :=
  match Text.dropEndWhile (· == '0') (ds.take 9) with
  | [] => []
  | kept => '.' :: kept

/-- A time of day at the front of a text, and the rest. -/
def time (cs : List Char) : Option (List Char × List Char) := do
  let (_, rest) ← twoDigits 0 23 cs
  let rest ← Text.after? [':'] rest
  let (_, rest) ← twoDigits 0 59 rest
  let rest ← Text.after? [':'] rest
  let (_, rest) ← twoDigits 0 60 rest
  match rest with
  | '.' :: rest =>
    let (ds, rest) := rest.span Decimal.isDigit
    if ds.isEmpty then none else some (cs.take 8 ++ secondFraction ds, rest)
  | rest => some (cs.take 8, rest)

/-- The distance from universal time: a letter, or hours and minutes with a sign. -/
def offset? : List Char → Option (List Char)
  | [] => some []
  | ['Z'] | ['z'] => some ['Z']
  | c :: cs => do
    if c != '+' && c != '-' then none
    let (hours, rest) ← twoDigits 0 23 cs
    let rest ← Text.after? [':'] rest
    let (minutes, rest) ← twoDigits 0 59 rest
    if !rest.isEmpty then none
    return (if hours = 0 ∧ minutes = 0 then '+' else c) :: cs

/-- A date, a time, or both with an optional offset, in its standard form. -/
def moment? (cs : List Char) : Option (List Char) :=
  match date cs with
  | some (day, []) => some day
  | some (day, c :: rest) => do
    if c != 'T' && c != 't' && c != ' ' then none
    let (clock, rest) ← time rest
    return day ++ 'T' :: clock ++ (← offset? rest)
  | none =>
    match time cs with
    | some (clock, []) => some clock
    | _ => none

/-- Characters of values without quotes. -/
def isWordChar (c : Char) : Bool :=
  c.isAlphanum || c == '+' || c == '-' || c == '_' || c == '.' || c == ':'

/-- The characters of a value without quotes at the front of a text, and the rest. A blank between a
    date and a digit is one of them. -/
def word (cs : List Char) : List Char × List Char :=
  match cs.span isWordChar with
  | (front, ' ' :: c :: rest) =>
    if Decimal.isDigit c && (date front).any (·.2.isEmpty) then
      let (back, rest) := (c :: rest).span isWordChar
      (front ++ ' ' :: back, rest)
    else (front, ' ' :: c :: rest)
  | split => split

/-- The value that a word stands for. -/
def ofWord? (w : List Char) : Option Value :=
  if w = "true".toList then some (.bool true)
  else if w = "false".toList then some (.bool false)
  else match moment? w with
    | some text => some (.string (String.ofList text))
    | none =>
      match int? w with
      | some n => some (.int n)
      | none => (float? w).map .float

end HandlerScript.Toml
