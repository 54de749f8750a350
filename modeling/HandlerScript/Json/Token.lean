import HandlerScript.Json.Failure
import HandlerScript.Number.Hexadecimal
import HandlerScript.Number.Shortest

/-! The words of JSON: blanks, literal words, strings and numbers.

    Each reader starts behind the character that announced it. Numbers with a fraction or an
    exponent are computed from at most sixty-four bits of their digits by one multiplication or
    division, so they are not always the nearest ones. -/

namespace HandlerScript.Json

def isBlank (c : Char) : Bool :=
  c == ' ' || c == '\n' || c == '\t' || c == '\r'

def skipBlanks (cs : List Char) : List Char := cs.dropWhile isBlank

/-- The rest of a literal word. -/
def word : List Char → List Char → Read (Unit × List Char)
  | [], cs => .ok ((), cs)
  | _ :: _, [] => failHere .endInValue []
  | p :: ps, c :: cs => if p = c then word ps cs else failNext .noWord (c :: cs)

/-! ### Strings -/

/-- Four hexadecimal digits. Four bytes are looked at, whatever they are. -/
def hexFour (cs : List Char) : Read (Nat × List Char) :=
  if Text.byteCount cs < 4 then failHere .endInString []
  else match cs with
    | a :: b :: c :: d :: rest =>
      match Hexadecimal.digit? a, Hexadecimal.digit? b, Hexadecimal.digit? c, Hexadecimal.digit? d with
      | some a, some b, some c, some d => .ok (((a * 16 + b) * 16 + c) * 16 + d, rest)
      | _, _, _, _ => .error ⟨.badEscape, Text.byteCount cs - 4⟩
    | _ => .error ⟨.badEscape, Text.byteCount cs - 4⟩

/-- The second half of a surrogate pair, given the first. -/
def lowSurrogate (high : Nat) (cs : List Char) : Read (Char × List Char) := do
  match cs with
  | [] => failHere .endInString []
  | '\\' :: [] => failHere .endInString []
  | '\\' :: 'u' :: rest =>
    let (low, rest) ← hexFour rest
    if 0xDC00 ≤ low ∧ low ≤ 0xDFFF then
      return (Char.ofNat ((high - 0xD800) * 0x400 + (low - 0xDC00) + 0x10000), rest)
    else failHere .loneSurrogate rest
  | '\\' :: rest => failNext .endInEscape rest
  | rest => failNext .endInEscape rest

/-- The character that an escape stands for, behind its backslash. -/
def escape (cs : List Char) : Read (Char × List Char) := do
  match cs with
  | [] => failHere .endInString []
  | '"' :: rest => return ('"', rest)
  | '\\' :: rest => return ('\\', rest)
  | '/' :: rest => return ('/', rest)
  | 'b' :: rest => return ('\x08', rest)
  | 'f' :: rest => return ('\x0c', rest)
  | 'n' :: rest => return ('\n', rest)
  | 'r' :: rest => return ('\r', rest)
  | 't' :: rest => return ('\t', rest)
  | 'u' :: rest =>
    let (n, rest) ← hexFour rest
    if 0xDC00 ≤ n ∧ n ≤ 0xDFFF then failHere .loneSurrogate rest
    else if 0xD800 ≤ n ∧ n ≤ 0xDBFF then lowSurrogate n rest
    else return (Char.ofNat n, rest)
  | rest => failNext .badEscape rest

/-- The characters of a string up to its closing quote; `fuel` bounds their number. -/
def stringUpTo : Nat → List Char → Read (List Char × List Char)
  | _, [] => failHere .endInString []
  | _, '"' :: rest => .ok ([], rest)
  | 0, rest => failHere .endInString rest
  | fuel + 1, '\\' :: rest => do
    let (c, rest) ← escape rest
    let (cs, rest) ← stringUpTo fuel rest
    return (c :: cs, rest)
  | fuel + 1, c :: rest =>
    if c.toNat < 0x20 then failHere .controlCharacter rest
    else do
      let (cs, rest) ← stringUpTo fuel rest
      return (c :: cs, rest)

/-- A string behind its opening quote. -/
def string (cs : List Char) : Read (String × List Char) := do
  let (s, rest) ← stringUpTo cs.length cs
  return (String.ofList s, rest)

/-- A string behind its opening quote, passed over: the halves of a surrogate pair need not match,
    and a control character is noticed before it is taken. -/
def passString : Nat → List Char → Read (Unit × List Char)
  | _, [] => failHere .endInString []
  | _, '"' :: rest => .ok ((), rest)
  | 0, rest => failHere .endInString rest
  | fuel + 1, '\\' :: rest => do
    match rest with
    | 'u' :: rest =>
      let (_, rest) ← hexFour rest
      passString fuel rest
    | _ =>
      let (_, rest) ← escape rest
      passString fuel rest
  | fuel + 1, c :: rest =>
    if c.toNat < 0x20 then failHere .controlCharacter (c :: rest) else passString fuel rest

/-! ### Numbers -/

/-- Integers from `-2 ^ 63` up to `2 ^ 64 - 1` are kept exactly. -/
inductive Number where
  | int (n : Int)
  | float (x : Float)

/-- Appends digits to a significand as long as it stays below `2 ^ 64`: the significand, how many
    digits it took, and the digits that were left. -/
def significand : Nat → List Char → Nat × Nat × List Char
  | s, [] => (s, 0, [])
  | s, c :: cs =>
    let s' := 10 * s + (c.toNat - 48)
    if s' < UInt64.size then
      let (t, n, rest) := significand s' cs
      (t, n + 1, rest)
    else (s, 0, c :: cs)

/-- `x * 10 ^ e` with powers of ten up to `10 ^ 308`; smaller numbers are reached in steps. -/
def powerOfTen? : Nat → Float → Int → Option Float
  | 0, x, _ => some x
  | fuel + 1, x, e =>
    if e.natAbs ≤ 308 then
      let p := Decimal.nearest false 1 e.natAbs
      if 0 ≤ e then
        let y := x * p
        if Binary64.isFinite y then some y else none
      else some (x / p)
    else if x == 0.0 then some x
    else if 0 ≤ e then none
    else powerOfTen? fuel (x / Decimal.nearest false 1 308) (e + 308)

/-- The number `± s * 10 ^ e`. -/
def ofDecimal (negative : Bool) (s : Nat) (e : Int) (rest : List Char) : Read (Number × List Char) :=
  match powerOfTen? 8 (Binary64.ofQuotient false s 1) e with
  | some x => .ok (.float (if negative then -x else x), rest)
  | none => failHere .numberOutOfRange rest

/-- The digits of an exponent as long as it stays below `2 ^ 31`. -/
def exponentDigits : Nat → List Char → Option Nat × List Char
  | e, [] => (some e, [])
  | e, c :: cs =>
    if Decimal.isDigit c then
      let e' := 10 * e + (c.toNat - 48)
      if e' < 0x80000000 then exponentDigits e' cs else (none, cs)
    else (some e, c :: cs)

/-- The exponent of a number, behind its mark. -/
def exponent (negative : Bool) (s : Nat) (e : Int) (cs : List Char) : Read (Number × List Char) :=
  let (down, cs) := Decimal.sign cs
  match cs with
  | [] => failHere .endInValue []
  | c :: rest =>
    if Decimal.isDigit c then
      match exponentDigits (c.toNat - 48) rest with
      | (some n, rest) => ofDecimal negative s (if down then e - n else e + n) rest
      | (none, rest) =>
        if s ≠ 0 ∧ !down then failHere .numberOutOfRange rest
        else .ok (.float (Binary64.zero negative), rest.dropWhile Decimal.isDigit)
    else failNext .badNumber (c :: rest)

/-- What may follow the digits of a number that is no integer. -/
def afterDigits (negative : Bool) (s : Nat) (e : Int) : List Char → Read (Number × List Char)
  | c :: cs => if c = 'e' ∨ c = 'E' then exponent negative s e cs
      else ofDecimal negative s e (c :: cs)
  | [] => ofDecimal negative s e []

/-- The fraction of a number, behind its point. -/
def fraction (negative : Bool) (s : Nat) (e : Int) (cs : List Char) : Read (Number × List Char) :=
  let (ds, rest) := cs.span Decimal.isDigit
  if ds.isEmpty then
    if rest.isEmpty then failHere .endInValue rest else failNext .badNumber rest
  else
    let (s, taken, _) := significand s ds
    afterDigits negative s (e - taken) rest

/-- An integer that was written without fraction and exponent. -/
def ofInteger (negative : Bool) (s : Nat) : Number :=
  if !negative then .int s
  else if 0 < s ∧ s ≤ 0x8000000000000000 then .int (-(s : Int))
  else .float (-(Binary64.ofQuotient false s 1))

/-- A number behind its sign. -/
def number (negative : Bool) : List Char → Read (Number × List Char)
  | [] => failHere .endInValue []
  | c :: cs =>
    if !Decimal.isDigit c then failNext .badNumber (c :: cs)
    else
      let (ds, rest) := if c = '0' then (['0'], cs) else (c :: cs).span Decimal.isDigit
      let (s, _, dropped) := significand 0 ds
      match rest with
      | '.' :: rest => fraction negative s dropped.length rest
      | r :: rest =>
        if r = 'e' ∨ r = 'E' then exponent negative s dropped.length rest
        else if c = '0' ∧ Decimal.isDigit r then failNext .badNumber (r :: rest)
        else if dropped.isEmpty then .ok (ofInteger negative s, r :: rest)
        else ofDecimal negative s dropped.length (r :: rest)
      | [] =>
        if dropped.isEmpty then .ok (ofInteger negative s, [])
        else ofDecimal negative s dropped.length []

/-! ### Writing -/

/-- A character as it stands in a string. -/
def escaped (c : Char) : List Char :=
  if c = '"' then ['\\', '"']
  else if c = '\\' then ['\\', '\\']
  else if c = '\x08' then ['\\', 'b']
  else if c = '\x0c' then ['\\', 'f']
  else if c = '\n' then ['\\', 'n']
  else if c = '\r' then ['\\', 'r']
  else if c = '\t' then ['\\', 't']
  else if c.toNat < 0x20 then
    ['\\', 'u', '0', '0', Hexadecimal.digit (c.toNat / 16), Hexadecimal.digit (c.toNat % 16)]
  else [c]

/-- A string with its quotes. -/
def quoted (s : String) : List Char :=
  '"' :: s.toList.flatMap escaped ++ ['"']

/-- A number in the fewest digits that read back: positional with at least one place after the
    point from `10 ^ -5` up to `10 ^ 16`, and with an exponent outside; `none` if it is not
    finite. -/
def floatChars? (x : Float) : Option (List Char) :=
  let signed (negative : Bool) (cs : List Char) := if negative then '-' :: cs else cs
  match Binary64.parts x with
  | .finite negative 0 _ => some (signed negative "0.0".toList)
  | .finite negative mantissa exponent =>
    let d := Decimal.shortest .even mantissa exponent
    let ds := Decimal.digits d.value
    let places : Int := ds.length + d.exponent
    if -5 < places ∧ places ≤ 16 then
      let (whole, frac) := Decimal.positional ds places
      some (signed negative (whole ++ '.' :: (if frac.isEmpty then ['0'] else frac)))
    else
      let power := places - 1
      let mark := if power < 0 then ['e'] else ['e', '+']
      some (signed negative (ds.take 1 ++ (if ds.length = 1 then [] else '.' :: ds.drop 1) ++ mark ++
        Decimal.intDigits power))
  | _ => none

def Number.chars : Number → List Char
  | .int n => Decimal.intDigits n
  | .float x => (floatChars? x).getD "null".toList

end HandlerScript.Json
