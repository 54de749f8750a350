import HandlerScript.Json.Token

/-! JSON values: reading, passing over and writing them.

    Reading accepts one hundred and twenty-seven nested brackets. A value that nobody asked for is
    passed over without building it, and may nest deeper. -/

namespace HandlerScript.Json

inductive Value where
  | null
  | bool (b : Bool)
  | number (n : Number)
  | string (s : String)
  | array (items : List Value)
  | object (members : List (String × Value))

/-- One more than the number of brackets that may be open at once. -/
def depthLimit : Nat := 128

/-! ### Between the items of a list or an object -/

/-- Whether a list goes on, and what is left in front of the next item or the closing bracket. -/
def moreItems (first : Bool) (cs : List Char) : Read (Bool × List Char) :=
  match skipBlanks cs with
  | [] => failHere .endInList []
  | ']' :: rest => .ok (false, ']' :: rest)
  | c :: rest =>
    if first then .ok (true, c :: rest)
    else if c = ',' then
      match skipBlanks rest with
      | [] => failHere .endInValue []
      | ']' :: rest => failNext .trailingComma (']' :: rest)
      | rest => .ok (true, rest)
    else failNext .noListEnd (c :: rest)

/-- Whether an object goes on, and what is left behind the quote of the next key or in front of the
    closing bracket. -/
def moreMembers (first : Bool) (cs : List Char) : Read (Bool × List Char) :=
  match skipBlanks cs with
  | [] => failHere .endInObject []
  | '}' :: rest => .ok (false, '}' :: rest)
  | c :: rest =>
    if first then
      if c = '"' then .ok (true, rest) else failNext .keyNotString (c :: rest)
    else if c = ',' then
      match skipBlanks rest with
      | [] => failHere .endInValue []
      | '"' :: rest => .ok (true, rest)
      | '}' :: rest => failNext .trailingComma ('}' :: rest)
      | rest => failNext .keyNotString rest
    else failNext .noObjectEnd (c :: rest)

/-- The colon behind a key. -/
def colon (cs : List Char) : Read (Unit × List Char) :=
  match skipBlanks cs with
  | [] => failHere .endInObject []
  | ':' :: rest => .ok ((), rest)
  | rest => failNext .noColon rest

/-! ### Reading -/

mutual

/-- Reads one value; `fuel` bounds the number of values within it. -/
def Value.read (fuel depth : Nat) (cs : List Char) : Read (Value × List Char) :=
  match fuel with
  | 0 => failHere .endInValue cs
  | fuel + 1 =>
    match skipBlanks cs with
    | [] => failHere .endInValue []
    | 'n' :: rest => do
      let (_, rest) ← word "ull".toList rest
      return (.null, rest)
    | 't' :: rest => do
      let (_, rest) ← word "rue".toList rest
      return (.bool true, rest)
    | 'f' :: rest => do
      let (_, rest) ← word "alse".toList rest
      return (.bool false, rest)
    | '"' :: rest => do
      let (s, rest) ← Json.string rest
      return (.string s, rest)
    | '-' :: rest => do
      let (n, rest) ← Json.number true rest
      return (.number n, rest)
    | '[' :: rest =>
      if depth ≤ 1 then failNext .tooDeep ('[' :: rest)
      else do
        let (items, rest) ← readItems fuel (depth - 1) true rest
        return (.array items, rest)
    | '{' :: rest =>
      if depth ≤ 1 then failNext .tooDeep ('{' :: rest)
      else do
        let (members, rest) ← readMembers fuel (depth - 1) true rest
        return (.object members, rest)
    | c :: rest =>
      if Decimal.isDigit c then do
        let (n, rest) ← Json.number false (c :: rest)
        return (.number n, rest)
      else failNext .noValue (c :: rest)

/-- Reads the items of a list and its closing bracket. -/
def readItems (fuel depth : Nat) (first : Bool) (cs : List Char) : Read (List Value × List Char) :=
  match fuel with
  | 0 => failHere .endInList cs
  | fuel + 1 => do
    let (more, rest) ← moreItems first cs
    if more then
      let (v, rest) ← Value.read fuel depth rest
      let (vs, rest) ← readItems fuel depth false rest
      return (v :: vs, rest)
    else return ([], rest.drop 1)

/-- Reads the members of an object and its closing bracket. -/
def readMembers (fuel depth : Nat) (first : Bool) (cs : List Char) :
    Read (List (String × Value) × List Char) :=
  match fuel with
  | 0 => failHere .endInObject cs
  | fuel + 1 => do
    let (more, rest) ← moreMembers first cs
    if more then
      let (key, rest) ← Json.string rest
      let (_, rest) ← colon rest
      let (v, rest) ← Value.read fuel depth rest
      let (vs, rest) ← readMembers fuel depth false rest
      return ((key, v) :: vs, rest)
    else return ([], rest.drop 1)

end

/-- Nothing but blanks may follow the one value of a text. -/
def finish (cs : List Char) : Except Failure Unit :=
  match skipBlanks cs with
  | [] => .ok ()
  | rest => failNext .trailingCharacters rest

/-- The value of a whole text. -/
def Value.parse (source : List Char) : Except Failure Value := do
  let (value, rest) ← Value.read (2 * source.length + 2) depthLimit source
  finish rest
  return value

/-! ### Passing over -/

/-- The bracket that a passed-over value is inside of. -/
inductive Bracket where
  | list
  | object
  deriving DecidableEq, Repr

/-- The key and the colon in front of a member that is passed over. -/
def passKey (cs : List Char) : Read (Unit × List Char) :=
  match skipBlanks cs with
  | [] => failHere .endInObject []
  | '"' :: rest => do
    let (_, rest) ← passString rest.length rest
    colon rest
  | rest => failNext .keyNotString rest

/-- Goes on behind a value inside some brackets, innermost first: over the brackets that close here,
    and up to the front of the next value. The truth value says whether a value has been passed in the
    innermost bracket. Gives the brackets that are still open. -/
def passClosing : Bool → List Bracket → List Char → Read (List Bracket × List Char)
  | _, [], cs => .ok ([], cs)
  | started, b :: outer, cs =>
    match b, skipBlanks cs with
    | .list, [] => failHere .endInList []
    | .object, [] => failHere .endInObject []
    | .list, ']' :: rest => passClosing true outer rest
    | .object, '}' :: rest => passClosing true outer rest
    | .list, c :: rest =>
      if !started then .ok (b :: outer, c :: rest)
      else if c = ',' then .ok (b :: outer, rest)
      else failNext .noListEnd (c :: rest)
    | .object, c :: rest =>
      if !started then do
        let (_, rest) ← passKey (c :: rest)
        return (b :: outer, rest)
      else if c = ',' then do
        let (_, rest) ← passKey rest
        return (b :: outer, rest)
      else failNext .noObjectEnd (c :: rest)

/-- Passes over an exponent, if there is one; its size does not matter. -/
def passExponent : List Char → Except Failure (List Char)
  | [] => .ok []
  | c :: cs =>
    if c = 'e' ∨ c = 'E' then
      match (Decimal.sign cs).2 with
      | [] => failHere .badNumber []
      | d :: rest =>
        if Decimal.isDigit d then .ok (rest.dropWhile Decimal.isDigit)
        else failNext .badNumber (d :: rest)
    else .ok (c :: cs)

/-- Passes over what may follow the whole digits of a number. -/
def passFraction : List Char → Except Failure (List Char)
  | '.' :: cs =>
    let (ds, rest) := cs.span Decimal.isDigit
    if ds.isEmpty then failNext .badNumber rest else passExponent rest
  | cs => passExponent cs

/-- Passes over a number behind its sign. -/
def passNumber : List Char → Except Failure (List Char)
  | [] => failHere .badNumber []
  | c :: cs =>
    if !Decimal.isDigit c then failNext .badNumber (c :: cs)
    else if c = '0' ∧ (cs.head?.map Decimal.isDigit).getD false then failNext .badNumber cs
    else passFraction (if c = '0' then cs else cs.dropWhile Decimal.isDigit)

/-- Passes over one value inside brackets that opened within it; `fuel` bounds the number of values
    and brackets. -/
def passValue : Nat → List Bracket → List Char → Read (Unit × List Char)
  | 0, _, cs => failHere .endInValue cs
  | fuel + 1, brackets, cs => do
    let (started, brackets, rest) ←
      match skipBlanks cs with
      | [] => failHere .endInValue []
      | 'n' :: rest => (word "ull".toList rest).map fun r => (true, brackets, r.2)
      | 't' :: rest => (word "rue".toList rest).map fun r => (true, brackets, r.2)
      | 'f' :: rest => (word "alse".toList rest).map fun r => (true, brackets, r.2)
      | '"' :: rest => (passString rest.length rest).map fun r => (true, brackets, r.2)
      | '-' :: rest => (passNumber rest).map fun r => (true, brackets, r)
      | '[' :: rest => .ok (false, .list :: brackets, rest)
      | '{' :: rest => .ok (false, .object :: brackets, rest)
      | c :: rest =>
        if Decimal.isDigit c then (passNumber (c :: rest)).map fun r => (true, brackets, r)
        else failNext .noValue (c :: rest)
    let (brackets, rest) ← passClosing started brackets rest
    if brackets.isEmpty then return ((), rest) else passValue fuel brackets rest

/-! ### Writing -/

/-- Joins texts with commas. -/
def commaJoin : List (List Char) → List Char
  | [] => []
  | [x] => x
  | x :: xs => x ++ ',' :: commaJoin xs

mutual

/-- A value without blanks. -/
def Value.compact : Value → List Char
  | .null => "null".toList
  | .bool b => (if b then "true" else "false").toList
  | .number n => n.chars
  | .string s => quoted s
  | .array items => '[' :: commaJoin (compactItems items) ++ [']']
  | .object members => '{' :: commaJoin (compactMembers members) ++ ['}']

def compactItems : List Value → List (List Char)
  | [] => []
  | v :: vs => v.compact :: compactItems vs

def compactMembers : List (String × Value) → List (List Char)
  | [] => []
  | (k, v) :: ms => (quoted k ++ ':' :: v.compact) :: compactMembers ms

end

/-- A line break and the blanks in front of the items at a depth. -/
def newLine (depth : Nat) : List Char :=
  '\n' :: List.replicate (2 * depth) ' '

/-- Items on lines of their own between brackets; nothing between the brackets of no items. -/
def block (opening closing : Char) (depth : Nat) (items : List (List Char)) : List Char :=
  if items.isEmpty then [opening, closing]
  else opening :: commaJoin (items.map (newLine (depth + 1) ++ ·)) ++ newLine depth ++ [closing]

mutual

/-- A value with every item on a line of its own, indented by two blanks for each bracket. -/
def Value.pretty (depth : Nat) : Value → List Char
  | .null => "null".toList
  | .bool b => (if b then "true" else "false").toList
  | .number n => n.chars
  | .string s => quoted s
  | .array items => block '[' ']' depth (prettyItems (depth + 1) items)
  | .object members => block '{' '}' depth (prettyMembers (depth + 1) members)

def prettyItems (depth : Nat) : List Value → List (List Char)
  | [] => []
  | v :: vs => v.pretty depth :: prettyItems depth vs

def prettyMembers (depth : Nat) : List (String × Value) → List (List Char)
  | [] => []
  | (k, v) :: ms => (quoted k ++ ':' :: ' ' :: v.pretty depth) :: prettyMembers depth ms

end

def Value.compactText (v : Value) : String := String.ofList v.compact

def Value.prettyText (v : Value) : String := String.ofList (v.pretty 0)

end HandlerScript.Json
