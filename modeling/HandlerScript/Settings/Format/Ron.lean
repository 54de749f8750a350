import HandlerScript.Number.Hexadecimal
import HandlerScript.Settings.Tree

/-! Settings in RON files.

    RON writes structures as named fields in parentheses, with or without a name in front, and maps in
    braces. Names that stand alone and empty parentheses have no value. -/

namespace HandlerScript.Settings.Ron

/-- What follows a comment that may hold others, given how many are open. -/
def skipComment : Nat → List Char → Option (List Char)
  | 0, cs => some cs
  | _ + 1, [] => none
  | depth + 1, '*' :: '/' :: cs => skipComment depth cs
  | depth + 1, '/' :: '*' :: cs => skipComment (depth + 2) cs
  | depth + 1, _ :: cs => skipComment (depth + 1) cs

def isSpace (c : Char) : Bool := c == ' ' || c == '\n' || c == '\t' || c == '\r'

/-- What follows blanks and comments. A comment without an end stays. -/
def skip : Nat → List Char → List Char
  | 0, cs => cs
  | fuel + 1, cs =>
    match cs.dropWhile isSpace with
    | '/' :: '/' :: rest => skip fuel (rest.dropWhile (· != '\n'))
    | '/' :: '*' :: rest =>
      match skipComment 1 rest with
      | some rest => skip fuel rest
      | none => '/' :: '*' :: rest
    | rest => rest

def skipAll (cs : List Char) : List Char := skip cs.length cs

/-! ### Names and texts -/

def isNameChar (c : Char) : Bool := c.isAlphanum || c == '_'

/-- A name at the front of a text. A raw name has `r#` in front and may hold dots and signs. -/
def name? : List Char → Option (String × List Char)
  | 'r' :: '"' :: _ => none
  | 'r' :: '#' :: rest =>
    let (name, rest) := rest.span fun c => isNameChar c || c == '.' || c == '+' || c == '-'
    if name.isEmpty then none else some (String.ofList name, rest)
  | c :: cs =>
    if c.isAlpha || c == '_' then
      let (name, rest) := (c :: cs).span isNameChar
      some (String.ofList name, rest)
    else none
  | [] => none

/-- The character behind a backslash. -/
def escape : List Char → Option (Char × List Char)
  | '\'' :: rest => some ('\'', rest)
  | '"' :: rest => some ('"', rest)
  | '\\' :: rest => some ('\\', rest)
  | 'n' :: rest => some ('\n', rest)
  | 'r' :: rest => some ('\r', rest)
  | 't' :: rest => some ('\t', rest)
  | '0' :: rest => some ('\x00', rest)
  | 'x' :: a :: b :: rest => (Hexadecimal.nat? [a, b]).map fun n => (Char.ofNat n, rest)
  | 'u' :: '{' :: rest => do
    let (ds, rest) := rest.span (· != '}')
    let n ← Hexadecimal.nat? ds
    if ds.length ≤ 6 ∧ n.isValidChar ∧ !rest.isEmpty then some (Char.ofNat n, rest.drop 1) else none
  | _ => none

/-- A string behind its opening quote. -/
def stringFrom : Nat → List Char → Option (List Char × List Char)
  | 0, _ | _, [] => none
  | _ + 1, '"' :: cs => some ([], cs)
  | fuel + 1, c :: cs => do
    let (c, rest) ← if c = '\\' then escape cs else some (c, cs)
    let (more, rest) ← stringFrom fuel rest
    return (c :: more, rest)

/-- A raw string behind its `r`: it ends at a quote with as many `#` behind it as stand in front. -/
def rawString (cs : List Char) : Option (List Char × List Char) :=
  let (marks, rest) := cs.span (· == '#')
  match rest with
  | '"' :: rest => Text.cut? ('"' :: marks) rest
  | _ => none

/-- A single character behind its opening quote. -/
def character : List Char → Option (Char × List Char)
  | '\\' :: rest =>
    match escape rest with
    | some (c, '\'' :: rest) => some (c, rest)
    | _ => none
  | c :: '\'' :: rest => some (c, rest)
  | _ => none

/-! ### Numbers -/

/-- The value of a numeral in a base. -/
def ofBase? (base : Nat) (cs : List Char) : Option Nat :=
  let ds := cs.filter (· != '_')
  if ds.isEmpty then none
  else ds.foldl (fun n? c => do
    let d ← Hexadecimal.digit? c
    if d < base then return base * (← n?) + d else none) (some 0)

/-- An integer; with a sign it has to fit into a word, and without one into a word without a sign. What
    no setting can hold is a number. -/
def ofInteger? (signed : Bool) (n : Int) : Option Value :=
  if (Word.ofInt? n).isSome then some (.int n)
  else if !signed ∧ 0 ≤ n ∧ n < UInt64.size then some (.float (Binary64.ofInt n))
  else none

/-- The number that a numeral stands for. Integers may have low lines between their digits; decimal
    ones that are too large are read like fractions, which may not. -/
def ofNumeral? (cs : List Char) : Option Value :=
  let (negative, body) := Decimal.sign cs
  let signed := body.length < cs.length
  let whole (n? : Option Nat) : Option Value :=
    n?.bind fun n => ofInteger? signed (if negative then -(n : Int) else n)
  match body with
  | '0' :: 'x' :: ds => whole (ofBase? 16 ds)
  | '0' :: 'o' :: ds => whole (ofBase? 8 ds)
  | '0' :: 'b' :: ds => whole (ofBase? 2 ds)
  | _ =>
    if body.any Decimal.isDigit then
      (whole (ofBase? 10 body)).or ((Decimal.float? cs).map .float)
    else none

/-- A number. -/
def number (cs : List Char) : Option (Value × List Char) := do
  let (text, rest) := cs.span fun c => isNameChar c || c == '.' || c == '+' || c == '-'
  return (← ofNumeral? text, rest)

/-! ### Values -/

/-- Whether a parenthesis holds named fields. -/
def hasFields (cs : List Char) : Bool :=
  match name? (skipAll cs) with
  | some (_, rest) => (skipAll rest).head? == some ':'
  | none => false

mutual

/-- A value at the front of a text, behind blanks and comments. -/
def value (fuel : Nat) (cs : List Char) : Option (Value × List Char) :=
  match fuel with
  | 0 => none
  | fuel + 1 =>
    match skipAll cs with
    | '(' :: ')' :: rest => some (.null, rest)
    | '(' :: rest => parenthesised fuel rest
    | '[' :: rest => do
      let (vs, rest) ← items fuel ']' rest
      return (.array vs, rest)
    | '{' :: rest => do
      let (tree, rest) ← fields fuel '}' [] rest
      return (.table tree, rest)
    | '"' :: rest => do
      let (s, rest) ← stringFrom (rest.length + 1) rest
      return (.string (String.ofList s), rest)
    | '\'' :: rest => (character rest).map fun (c, rest) => (.string (String.singleton c), rest)
    | cs =>
      match name? cs with
      | some ("true", rest) => some (.bool true, rest)
      | some ("false", rest) => some (.bool false, rest)
      | some ("None", rest) => some (.null, rest)
      | some ("inf", rest) => some (.float (Binary64.infinity false), rest)
      | some ("NaN", rest) => some (.float Binary64.nan, rest)
      | some ("Some", rest) =>
        match skipAll rest with
        | '(' :: rest => do
          let (v, rest) ← value fuel rest
          match skipAll rest with
          | ')' :: rest => return (v, rest)
          | _ => none
        | _ => none
      | some (_, rest) =>
        match skipAll rest with
        | '(' :: ')' :: rest => some (.null, rest)
        | '(' :: rest => parenthesised fuel rest
        | _ => some (.null, rest)
      | none =>
        match cs with
        | 'r' :: rest => (rawString rest).map fun (s, rest) => (.string (String.ofList s), rest)
        | '-' :: 'i' :: 'n' :: 'f' :: rest => some (.float (Binary64.infinity true), rest)
        | cs => number cs

/-- What stands in parentheses: fields, or else items. -/
def parenthesised (fuel : Nat) (cs : List Char) : Option (Value × List Char) :=
  match fuel with
  | 0 => none
  | fuel + 1 =>
    if hasFields cs then do
      let (tree, rest) ← fields fuel ')' [] cs
      return (.table tree, rest)
    else do
      let (vs, rest) ← items fuel ')' cs
      return (.array vs, rest)

/-- Items up to a closing bracket. -/
def items (fuel : Nat) (closing : Char) (cs : List Char) : Option (List Value × List Char) :=
  match fuel with
  | 0 => none
  | fuel + 1 =>
    let cs := skipAll cs
    if cs.head? == some closing then some ([], cs.drop 1)
    else do
      let (v, rest) ← value fuel cs
      let rest := skipAll rest
      if rest.head? == some ',' then
        let (vs, rest) ← items fuel closing (rest.drop 1)
        return (v :: vs, rest)
      else if rest.head? == some closing then return ([v], rest.drop 1)
      else none

/-- Fields up to a closing bracket. In parentheses names stand for themselves, in braces they are
    texts. -/
def fields (fuel : Nat) (closing : Char) (tree : Tree) (cs : List Char) :
    Option (Tree × List Char) :=
  match fuel with
  | 0 => none
  | fuel + 1 =>
    let cs := skipAll cs
    if cs.head? == some closing then some (tree, cs.drop 1)
    else do
      let (name, rest) ←
        if closing = ')' then name? cs
        else match value fuel cs with
          | some (.string s, rest) => some (s, rest)
          | _ => none
      let rest := skipAll rest
      if rest.head? != some ':' then none
      let (v, rest) ← value fuel (rest.drop 1)
      let rest := skipAll rest
      if rest.head? == some ',' then fields fuel closing (put name v tree) (rest.drop 1)
      else if rest.head? == some closing then return (put name v tree, rest.drop 1)
      else none

end

/-- What follows the list of extensions in front of a file. -/
def skipExtensions : Nat → List Char → Option (List Char)
  | 0, cs => some cs
  | fuel + 1, cs =>
    match skipAll cs with
    | '#' :: '!' :: '[' :: rest => do
      let (_, rest) ← Text.cut? [']'] rest
      skipExtensions fuel rest
    | rest => some rest

/-- The settings in a file. -/
def read (source : List Char) : Option Tree := do
  let cs ← skipExtensions source.length source
  match ← value (2 * cs.length + 2) cs with
  | (.table tree, rest) => if (skipAll rest).isEmpty then some tree else none
  | _ => none

end HandlerScript.Settings.Ron
