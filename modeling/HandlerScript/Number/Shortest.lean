import HandlerScript.Number.Decimal

/-! The shortest decimal that reads back as a given number, and the texts made of it.

    The decimals that read back as a number form an interval around it. For one digit, two digits
    and so on up to seventeen, the number lies between two neighbours on the decimal grid; the
    first grid with a neighbour inside the interval gives the digits, and of two neighbours inside
    it the nearer one. All comparisons are exact. -/

namespace HandlerScript.Decimal

/-- Where an exact middle between two neighbours goes. -/
inductive Tie where
  | up
  | even
  deriving DecidableEq, Repr

/-- A positive decimal `value * 10 ^ exponent`. -/
structure Scientific where
  value : Nat
  exponent : Int
  deriving DecidableEq, Repr

/-- The interval of reals that round to a number, with the number itself, over one denominator.
    The ends belong to it when the mantissa is even. -/
structure Neighbourhood where
  low : Nat
  number : Nat
  high : Nat
  den : Nat
  closed : Bool

/-- The neighbourhood of `mantissa * 2 ^ exponent`. Below a power of two the numbers lie twice as
    dense, so the interval reaches half as far down. -/
def Neighbourhood.around (mantissa : Nat) (exponent : Int) : Neighbourhood :=
  let factor := 1 <<< (exponent - 2).toNat
  { low := (if mantissa = Binary64.leadingBit then 4 * mantissa - 1 else 4 * mantissa - 2) * factor
    number := 4 * mantissa * factor
    high := (4 * mantissa + 2) * factor
    den := 1 <<< (2 - exponent).toNat
    closed := mantissa % 2 = 0 }

/-- The neighbourhood measured in units of `10 ^ e`. -/
def Neighbourhood.inUnits (i : Neighbourhood) (e : Int) : Neighbourhood :=
  let factor := Nat.pow 10 (-e).toNat
  { low := i.low * factor
    number := i.number * factor
    high := i.high * factor
    den := i.den * Nat.pow 10 e.toNat
    closed := i.closed }

/-- Whether a whole number of units reads back as the number. -/
def Neighbourhood.holds (i : Neighbourhood) (n : Nat) : Bool :=
  if i.closed then i.low ≤ n * i.den && n * i.den ≤ i.high
  else i.low < n * i.den && n * i.den < i.high

/-- The whole number of units that reads back, the nearer one if both neighbours do. -/
def Neighbourhood.pick? (tie : Tie) (i : Neighbourhood) : Option Nat :=
  let below := i.number / i.den
  let rest := 2 * (i.number % i.den)
  match i.holds below, i.holds (below + 1) with
  | true, false => some below
  | false, true => some (below + 1)
  | false, false => none
  | true, true =>
    if rest < i.den then some below
    else if i.den < rest then some (below + 1)
    else match tie with
      | .up => some (below + 1)
      | .even => some (if below % 2 = 0 then below else below + 1)

/-- The least `k` with `number < 10 ^ k`, sought near an estimate from the binary logarithm. -/
def Neighbourhood.order (i : Neighbourhood) : Int :=
  let guess := ((i.number.log2 : Int) - i.den.log2 - 1) * 30103 / 100000
  let fits (k : Int) : Bool :=
    let s := i.inUnits k
    s.number < s.den
  match [guess - 1, guess, guess + 1, guess + 2].find? fits with
  | some k => k
  | none => guess + 3

/-- Drops the zeros at the end of the digits; `fuel` bounds their number. -/
def Scientific.strip : Nat → Scientific → Scientific
  | 0, d => d
  | fuel + 1, d =>
    if d.value % 10 = 0 && d.value != 0 then strip fuel ⟨d.value / 10, d.exponent + 1⟩ else d

/-- The shortest decimal that reads back as `mantissa * 2 ^ exponent`, for a positive mantissa. -/
def shortest (tie : Tie) (mantissa : Nat) (exponent : Int) : Scientific :=
  let i := Neighbourhood.around mantissa exponent
  let k := i.order
  let found := (List.range 17).findSome? fun (n : Nat) =>
    let e := k - 1 - (n : Int)
    ((i.inUnits e).pick? tie).map fun v => Scientific.mk v e
  match found with
  | some d => d.strip 20
  | none => ⟨mantissa, 0⟩

/-! ### Texts -/

/-- Digits with a point after `places` of them; zeros fill up on either side. -/
def positional (ds : List Char) (places : Int) : List Char × List Char :=
  if places ≤ 0 then (['0'], List.replicate (-places).toNat '0' ++ ds)
  else
    let n := places.toNat
    (ds.take n ++ List.replicate (n - ds.length) '0', ds.drop n)

/-- A number in positional notation with the fewest digits that read back, however large or small
    it is; a zero fraction is not written. -/
def plain (x : Float) : List Char :=
  let signed (negative : Bool) (cs : List Char) := if negative then '-' :: cs else cs
  match Binary64.parts x with
  | .nan => "NaN".toList
  | .infinite negative => signed negative "inf".toList
  | .finite negative 0 _ => signed negative ['0']
  | .finite negative mantissa exponent =>
    let d := shortest .up mantissa exponent
    let ds := digits d.value
    let (whole, frac) := positional ds (ds.length + d.exponent)
    signed negative (if frac.isEmpty then whole else whole ++ '.' :: frac)

/-- The text of a number. -/
def plainText (x : Float) : String := String.ofList (plain x)

end HandlerScript.Decimal
