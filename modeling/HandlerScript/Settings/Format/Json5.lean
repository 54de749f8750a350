import HandlerScript.Number.Hexadecimal
import HandlerScript.Settings.Tree
import HandlerScript.Text.Alphanumeric
import HandlerScript.Text.Extending

/-! Settings in JSON5 files.

    JSON5 is JSON with comments, names without quotes, strings in single quotes, commas behind the
    last item, and more numerals. -/

namespace HandlerScript.Settings.Json5

def isLineEnd (c : Char) : Bool := c == '\n' || c == '\r' || c == '\u2028' || c == '\u2029'

def isSpace (c : Char) : Bool :=
  isLineEnd c || c == '\ufeff' || (Text.isBlank c && c != '\u0085')

/-- What follows blanks and comments. -/
def skip : Nat → List Char → List Char
  | 0, cs => cs
  | fuel + 1, cs =>
    match cs.dropWhile isSpace with
    | '/' :: '/' :: rest => skip fuel (rest.dropWhile (!isLineEnd ·))
    | '/' :: '*' :: rest =>
      match Text.cut? ['*', '/'] rest with
      | some (_, rest) => skip fuel rest
      | none => '/' :: '*' :: rest
    | rest => rest

def skipAll (cs : List Char) : List Char := skip cs.length cs

/-! ### Strings and names -/

/-- The number that hexadecimal digits at the front of a text spell. -/
def hexCode (count : Nat) (cs : List Char) : Option (Nat × List Char) :=
  if (cs.take count).length = count then (Hexadecimal.nat? (cs.take count)).map (·, cs.drop count)
  else none

/-- The character behind the `u` of an escape; two halves of a character stand in two escapes. -/
def unicodeEscape (cs : List Char) : Option (Char × List Char) := do
  let (high, rest) ← hexCode 4 cs
  if 0xD800 ≤ high ∧ high < 0xDC00 then
    match rest with
    | '\\' :: 'u' :: rest =>
      let (low, rest) ← hexCode 4 rest
      if 0xDC00 ≤ low ∧ low < 0xE000 then
        some (Char.ofNat (0x10000 + 0x400 * (high - 0xD800) + (low - 0xDC00)), rest)
      else none
    | _ => none
  else if high.isValidChar then some (Char.ofNat high, rest) else none

/-- What stands behind a backslash in a string. A line break does not count. -/
def escape : List Char → Option (List Char × List Char)
  | [] => none
  | 'b' :: rest => some (['\x08'], rest)
  | 'f' :: rest => some (['\x0c'], rest)
  | 'n' :: rest => some (['\n'], rest)
  | 'r' :: rest => some (['\r'], rest)
  | 't' :: rest => some (['\t'], rest)
  | 'v' :: rest => some (['\x0b'], rest)
  | '0' :: rest => some (['\x00'], rest)
  | 'x' :: rest => (hexCode 2 rest).map fun (n, rest) => ([Char.ofNat n], rest)
  | 'u' :: rest => (unicodeEscape rest).map fun (c, rest) => ([c], rest)
  | '\r' :: '\n' :: rest => some ([], rest)
  | c :: rest =>
    if isLineEnd c then some ([], rest) else if Decimal.isDigit c then none else some ([c], rest)

/-- A string behind its opening quote. -/
def stringFrom (quote : Char) : Nat → List Char → Option (List Char × List Char)
  | 0, _ | _, [] => none
  | fuel + 1, c :: cs =>
    if c = quote then some ([], cs)
    else do
      let (text, rest) ←
        if c = '\\' then escape cs else if isLineEnd c then none else some ([c], cs)
      let (more, rest) ← stringFrom quote fuel rest
      return (text ++ more, rest)

def string (quote : Char) (cs : List Char) : Option (String × List Char) :=
  (stringFrom quote (cs.length + 1) cs).map fun (s, rest) => (String.ofList s, rest)

/-- Whether a character may stand in a name. -/
def isNameChar (first : Bool) (c : Char) : Bool :=
  c.isAlpha || c == '$' || c == '_' || (!first && (c.isDigit || c == '\u200c' || c == '\u200d')) ||
    ('\x7f' < c && (Text.isAlphanumeric c || (!first && Text.isExtending c)))

/-- The longest name at the front of a text. -/
def nameFrom (first : Bool) : Nat → List Char → List Char × List Char
  | 0, cs => ([], cs)
  | _, [] => ([], [])
  | fuel + 1, c :: cs =>
    if isNameChar first c then
      let (more, rest) := nameFrom false fuel cs
      (c :: more, rest)
    else
      match c, cs with
      | '\\', 'u' :: rest =>
        match unicodeEscape rest with
        | some (d, rest) =>
          let (more, rest) := nameFrom false fuel rest
          (d :: more, rest)
        | none => ([], c :: cs)
      | _, _ => ([], c :: cs)

/-- The name of a member. -/
def key (cs : List Char) : Option (String × List Char) :=
  match cs with
  | '"' :: rest => string '"' rest
  | '\'' :: rest => string '\'' rest
  | cs =>
    match nameFrom true cs.length cs with
    | ([], _) => none
    | (name, rest) => some (String.ofList name, rest)

/-! ### Numbers -/

/-- The exponent at the front of a text; where there is none, nothing is taken. -/
def exponent (cs : List Char) : List Char × List Char :=
  match cs with
  | c :: rest =>
    if c = 'e' ∨ c = 'E' then
      let mark := match rest with
        | s :: _ => if s = '+' ∨ s = '-' then [c, s] else [c]
        | [] => [c]
      let (ds, behind) := (rest.drop (mark.length - 1)).span Decimal.isDigit
      if ds.isEmpty then ([], cs) else (mark ++ ds, behind)
    else ([], cs)
  | [] => ([], [])

/-- The characters of a decimal numeral without a sign. -/
def decimal (cs : List Char) : Option (List Char × List Char) :=
  match cs with
  | '.' :: rest =>
    let (ds, rest) := rest.span Decimal.isDigit
    let (e, rest) := exponent rest
    if ds.isEmpty then none else some ('.' :: ds ++ e, rest)
  | c :: rest =>
    if !Decimal.isDigit c then none
    else
      let (whole, rest) := if c = '0' then (['0'], rest) else (c :: rest).span Decimal.isDigit
      match rest with
      | '.' :: rest =>
        let (ds, rest) := rest.span Decimal.isDigit
        let (e, rest) := exponent rest
        some (whole ++ '.' :: ds ++ e, rest)
      | rest =>
        let (e, rest) := exponent rest
        some (whole ++ e, rest)
  | [] => none

/-- The integer or number of a decimal numeral. Integers have 64 bits, and numbers are finite. -/
def ofDecimal? (negative : Bool) (cs : List Char) : Option Value :=
  if cs.all Decimal.isDigit then do
    let n ← Decimal.nat? cs
    let w ← Word.ofInt? (if negative then -(n : Int) else n)
    return .int w.toInt
  else do
    let x ← Decimal.float? (if negative then '-' :: cs else cs)
    if Binary64.isFinite x then some (.float x) else none

/-- A hexadecimal integer behind its mark, which has 32 bits. -/
def hexadecimal (cs : List Char) : Option (Value × List Char) := do
  let (ds, rest) := cs.span fun c => (Hexadecimal.digit? c).isSome
  let n ← Hexadecimal.nat? ds
  if n < UInt32.size then some (.int n, rest) else none

/-- A number. Words for numbers have no plus sign, and hexadecimal ones no sign at all. -/
def number (cs : List Char) : Option (Value × List Char) :=
  let (negative, body) := Decimal.sign cs
  let plus := cs.head? == some '+'
  match Text.after? "Infinity".toList body, Text.after? "NaN".toList body with
  | some rest, _ => if plus then none else some (.float (Binary64.infinity negative), rest)
  | none, some rest => if plus then none else some (.float Binary64.nan, rest)
  | none, none =>
    match body with
    | '0' :: 'x' :: rest | '0' :: 'X' :: rest =>
      if body.length = cs.length then hexadecimal rest else none
    | _ => do
      let (text, rest) ← decimal body
      return (← ofDecimal? negative text, rest)

/-! ### Values -/

mutual

/-- A value at the front of a text, behind blanks and comments. -/
def value (fuel : Nat) (cs : List Char) : Option (Value × List Char) :=
  match fuel with
  | 0 => none
  | fuel + 1 =>
    match skipAll cs with
    | '[' :: rest => do
      let (vs, rest) ← items fuel rest
      return (.array vs, rest)
    | '{' :: rest => do
      let (tree, rest) ← members fuel [] rest
      return (.table tree, rest)
    | '"' :: rest => (string '"' rest).map fun (s, rest) => (.string s, rest)
    | '\'' :: rest => (string '\'' rest).map fun (s, rest) => (.string s, rest)
    | rest =>
      match Text.after? "null".toList rest, Text.after? "true".toList rest,
          Text.after? "false".toList rest with
      | some rest, _, _ => some (.null, rest)
      | _, some rest, _ => some (.bool true, rest)
      | _, _, some rest => some (.bool false, rest)
      | none, none, none => number rest

/-- The items of an array behind its opening bracket, or behind a comma. -/
def items (fuel : Nat) (cs : List Char) : Option (List Value × List Char) :=
  match fuel with
  | 0 => none
  | fuel + 1 =>
    match skipAll cs with
    | ']' :: rest => some ([], rest)
    | cs => do
      let (v, rest) ← value fuel cs
      match skipAll rest with
      | ']' :: rest => return ([v], rest)
      | ',' :: rest =>
        let (vs, rest) ← items fuel rest
        return (v :: vs, rest)
      | _ => none

/-- The members of an object behind its opening bracket, or behind a comma; of members with one name
    the last counts. -/
def members (fuel : Nat) (tree : Tree) (cs : List Char) : Option (Tree × List Char) :=
  match fuel with
  | 0 => none
  | fuel + 1 =>
    match skipAll cs with
    | '}' :: rest => some (tree, rest)
    | cs => do
      let (name, rest) ← key cs
      match skipAll rest with
      | ':' :: rest =>
        let (v, rest) ← value fuel rest
        let tree := put name v tree
        match skipAll rest with
        | '}' :: rest => return (tree, rest)
        | ',' :: rest => members fuel tree rest
        | _ => none
      | _ => none

end

/-- The settings in a file. -/
def read (source : List Char) : Option Tree :=
  match value (source.length + 1) source with
  | some (.table tree, rest) => if (skipAll rest).isEmpty then some tree else none
  | _ => none

end HandlerScript.Settings.Json5
