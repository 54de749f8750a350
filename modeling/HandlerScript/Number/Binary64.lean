/-! Binary64 numbers, taken apart and put together.

    A finite number is `± mantissa * 2 ^ exponent` with a mantissa below `2 ^ 53`. Everything here is
    exact arithmetic on naturals: a quotient is rounded to the nearest number, a half to the even
    mantissa, and a number is rounded to an integer without passing through another number. -/

namespace HandlerScript.Binary64

/-- A number by its parts. -/
inductive Parts where
  | nan
  | infinite (negative : Bool)
  | finite (negative : Bool) (mantissa : Nat) (exponent : Int)
  deriving DecidableEq, Repr

/-- The exponent of the last place of the smallest numbers. -/
def leastExponent : Int := -1074

/-- The weight of the bit in front of the fraction, `2 ^ 52`. -/
def leadingBit : Nat := 1 <<< 52

/-- The weight of the sign, `2 ^ 63`. -/
def signBit : Nat := 1 <<< 63

/-- The bits of infinity without a sign. -/
def infinityBits : Nat := 2047 * leadingBit

/-- Reads the parts off the bits: one of sign, eleven of exponent, fifty-two of fraction. -/
def Parts.ofBits (bits : Nat) : Parts :=
  let negative := decide (signBit ≤ bits)
  let field : Nat := bits / leadingBit % 2048
  let fraction : Nat := bits % leadingBit
  if field = 2047 then (if fraction = 0 then .infinite negative else .nan)
  else if field = 0 then .finite negative fraction leastExponent
  else .finite negative (leadingBit + fraction) ((field : Int) - 1075)

/-- The parts of a number. -/
def parts (x : Float) : Parts :=
  Parts.ofBits x.toBits.toNat

def isFinite (x : Float) : Bool :=
  match parts x with
  | .finite .. => true
  | _ => false

/-- The number with the given sign and unsigned bits. -/
def ofMagnitude (negative : Bool) (bits : Nat) : Float :=
  Float.ofBits (UInt64.ofNat (if negative then signBit + bits else bits))

def zero (negative : Bool) : Float := ofMagnitude negative 0

def infinity (negative : Bool) : Float := ofMagnitude negative infinityBits

def nan : Float := ofMagnitude false (infinityBits + leadingBit / 2)

/-- The number without its sign. -/
def abs (x : Float) : Float :=
  ofMagnitude false (x.toBits.toNat % signBit)

/-- `± mantissa * 2 ^ exponent`, for a mantissa that fills its places or an exponent that is least.
    A mantissa of `2 ^ 53` carries into the exponent, and what exceeds all numbers is infinite. -/
def compose (negative : Bool) (mantissa : Nat) (exponent : Int) : Float :=
  ofMagnitude negative (min infinityBits ((exponent - leastExponent).toNat * leadingBit + mantissa))

/-! ### Rounding a quotient -/

/-- Numerator and denominator of `num / den / 2 ^ e`. -/
def scale (num den : Nat) (e : Int) : Nat × Nat :=
  (num <<< (-e).toNat, den <<< e.toNat)

/-- A quotient to the nearest natural, a half to the even one. -/
def roundHalfEven (num den : Nat) : Nat :=
  let q := num / den
  let r := num % den
  if 2 * r < den then q
  else if den < 2 * r then q + 1
  else if q % 2 = 0 then q else q + 1

/-- The exponent of the last place that a positive quotient keeps. -/
def lastPlace (num den : Nat) : Int :=
  let e := (num.log2 : Int) - den.log2
  let (n, d) := scale num den e
  max ((if n < d then e - 1 else e) - 52) leastExponent

/-- The number nearest to `± num / den`. -/
def ofQuotient (negative : Bool) (num den : Nat) : Float :=
  if num = 0 then zero negative
  else
    let e := lastPlace num den
    let (n, d) := scale num den e
    compose negative (roundHalfEven n d) e

/-- The number nearest to an integer. -/
def ofInt (n : Int) : Float :=
  ofQuotient (n < 0) n.natAbs 1

/-! ### Integers near a number -/

/-- Which integer stands for a number between two of them. -/
inductive Rounding where
  | floor
  | ceiling
  | halfAway
  deriving DecidableEq, Repr

/-- The rounded magnitude, from the quotient and remainder by the unit. -/
def Rounding.choose (mode : Rounding) (negative : Bool) (q r unit : Nat) : Nat :=
  match mode with
  | .floor => if negative && r != 0 then q + 1 else q
  | .ceiling => if !negative && r != 0 then q + 1 else q
  | .halfAway => if unit ≤ 2 * r then q + 1 else q

/-- The number rounded to an integer. It keeps its sign, so that `-0.5` goes up to `-0`. -/
def toIntegral (mode : Rounding) (x : Float) : Float :=
  match parts x with
  | .finite negative mantissa exponent =>
    if 0 ≤ exponent then x
    else
      let unit := 1 <<< (-exponent).toNat
      ofQuotient negative (mode.choose negative (mantissa / unit) (mantissa % unit) unit) 1
  | _ => x

/-- The integer part, kept between two bounds; no number at all counts as zero. -/
def truncate (least greatest : Int) (x : Float) : Int :=
  match parts x with
  | .nan => 0
  | .infinite negative => if negative then least else greatest
  | .finite negative mantissa exponent =>
    let whole := mantissa <<< exponent.toNat >>> (-exponent).toNat
    max least (min greatest (if negative then -(whole : Int) else whole))

/-- The integer part as a count: nothing unless the number is finite and positive. -/
def toCount (x : Float) : Nat :=
  match parts x with
  | .finite false mantissa exponent => mantissa <<< exponent.toNat >>> (-exponent).toNat
  | _ => 0

/-- The integer part as a machine integer, saturating. -/
def toInt64 (x : Float) : Int64 :=
  Int64.ofInt (truncate Int64.minValue.toInt Int64.maxValue.toInt x)

end HandlerScript.Binary64
