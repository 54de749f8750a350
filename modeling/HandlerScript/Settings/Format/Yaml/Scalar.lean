import HandlerScript.Number.Hexadecimal
import HandlerScript.Settings.Format.Yaml.Cursor
import HandlerScript.Settings.Tree

/-! Scalars in YAML.

    A scalar is plain, or stands in quotes, or is a block of lines below its header. Outside of blocks
    a line break within a scalar counts as a blank, and blank lines as line breaks. -/

namespace HandlerScript.Settings.Yaml

/-- What line breaks within a scalar stand for. -/
def folded (breaks : Nat) : List Char :=
  if breaks ≤ 1 then [' '] else List.replicate (breaks - 1) '\n'

/-- Passes over blanks and line breaks within a scalar, and counts the breaks: the one behind the text,
    and those of blank lines. -/
def pastFold? (pastTab? : Cursor → Option Cursor) : Nat → Nat → Cursor → Option (Nat × Cursor)
  | 0, n, c => some (n, c)
  | fuel + 1, n, c =>
    match c.rest with
    | '\n' :: _ => pastFold? pastTab? fuel (if c.leading then n + 1 else max n 1) c.next
    | ' ' :: _ => pastFold? pastTab? fuel n c.next
    | '\t' :: _ => (pastTab? c).bind (pastFold? pastTab? fuel n)
    | _ => some (n, c)

/-! ### In quotes -/

/-- The character that some hexadecimal digits spell. -/
def charOfHex (count : Nat) (cs : List Char) : Option (Char × List Char) := do
  let n ← Hexadecimal.nat? (cs.take count)
  if (cs.take count).length = count ∧ n.isValidChar then some (Char.ofNat n, cs.drop count) else none

/-- The character behind a backslash. -/
def escape : List Char → Option (Char × List Char)
  | '0' :: rest => some ('\x00', rest)
  | 'a' :: rest => some ('\x07', rest)
  | 'b' :: rest => some ('\x08', rest)
  | 't' :: rest | '\t' :: rest => some ('\t', rest)
  | 'n' :: rest => some ('\n', rest)
  | 'v' :: rest => some ('\x0b', rest)
  | 'f' :: rest => some ('\x0c', rest)
  | 'r' :: rest => some ('\r', rest)
  | 'e' :: rest => some ('\x1b', rest)
  | ' ' :: rest => some (' ', rest)
  | '"' :: rest => some ('"', rest)
  | '/' :: rest => some ('/', rest)
  | '\\' :: rest => some ('\\', rest)
  | 'N' :: rest => some ('\u0085', rest)
  | '_' :: rest => some ('\u00a0', rest)
  | 'L' :: rest => some ('\u2028', rest)
  | 'P' :: rest => some ('\u2029', rest)
  | 'x' :: rest => charOfHex 2 rest
  | 'u' :: rest => charOfHex 4 rest
  | 'U' :: rest => charOfHex 8 rest
  | _ => none

inductive Quote where
  | single
  | double
  deriving DecidableEq, Repr

def Quote.char : Quote → Char
  | .single => '\''
  | .double => '"'

/-- A text in quotes up to a blank, a line break or the closing quote. A backslash takes the line break
    behind it away. -/
def quotedWord? (q : Quote) : Nat → List Char → Option (List Char × Bool × List Char)
  | 0, _ => none
  | _, [] => some ([], false, [])
  | fuel + 1, x :: cs =>
    let more (y : Char) (rest : List Char) : Option (List Char × Bool × List Char) :=
      (quotedWord? q fuel rest).map fun (text, joined, rest) => (y :: text, joined, rest)
    if isBlank x || x == '\n' then some ([], false, x :: cs)
    else match q, x, cs with
      | .single, '\'', '\'' :: rest => more '\'' rest
      | .single, '\'', _ | .double, '"', _ => some ([], false, x :: cs)
      | .double, '\\', '\n' :: rest => some ([], true, rest)
      | .double, '\\', _ => (escape cs).bind fun (y, rest) => more y rest
      | _, _, _ => more x cs

/-- A text in quotes, behind the first. Its lines are indented by `indent` at least. -/
def quoted? (q : Quote) (indent : Int) : Nat → Cursor → Option (List Char × Cursor)
  | 0, _ => none
  | fuel + 1, c => do
    if c.atMarker ∨ c.rest.isEmpty ∨ c.isBefore indent then none
    let (word, joined, rest) ← quotedWord? q (c.rest.length + 1) c.rest
    let d := c.leaving rest
    if rest.head? = some q.char then return (word, d.next)
    let pastTab? (c : Cursor) : Option Cursor :=
      if c.leading ∧ c.isBefore indent then none else some c.next
    let (breaks, e) ← pastFold? pastTab? (rest.length + 1) 0 d
    let gap :=
      if joined then List.replicate breaks '\n'
      else if breaks = 0 then rest.takeWhile isBlank
      else folded breaks
    let (more, e) ← quoted? q indent fuel e
    return (word ++ gap ++ more, e)

/-- What follows a text in quotes on its line: nothing, a colon, or in brackets what goes on there. -/
def endsQuoted (flow sameLine : Bool) (c : Cursor) : Bool :=
  match c.rest with
  | [] => true
  | x :: _ =>
    x == '\n' || (x == ':' && (flow || sameLine)) ||
      (flow && (x == ',' || x == ']' || x == '}'))

/-- A text in quotes, with what is left of its last line. -/
def quotedScalar? (q : Quote) (flow : Bool) (indent : Int) (c : Cursor) :
    Option (List Char × Cursor) := do
  let (text, d) ← quoted? q indent (c.rest.length + 1) c.next
  let e ← d.pastBlanks?
  if endsQuoted flow (e.line == c.line) e then some (text, e) else none

/-! ### Plain -/

/-- Whether a plain scalar goes on with a text that begins with no blank. -/
def continuesPlain (flow : Bool) : List Char → Bool
  | [] => false
  | x :: cs =>
    !(x == ':' && (beforeBlank cs || (flow && beforeFlowChar cs))) && !(flow && isFlowChar x)

/-- A plain scalar up to a blank. -/
def plainWord (flow : Bool) : List Char → List Char
  | [] => []
  | x :: cs =>
    if isBlank x || x == '\n' || !continuesPlain flow (x :: cs) then []
    else x :: plainWord flow cs

/-- A plain scalar, with the blanks and line breaks behind it. Outside of brackets its lines after the
    first are indented by `indent` at least. -/
def plain? (flow : Bool) (indent : Int) : Nat → Cursor → Option (List Char × Cursor)
  | 0, _ => none
  | fuel + 1, c =>
    let lone := match c.rest with
      | '-' :: rest => flow && beforeFlowChar rest
      | _ => false
    if c.atMarker ∨ c.rest.head? = some '#' then some ([], c)
    else if lone then none
    else
      let word := plainWord flow c.rest
      let d := c.skip word.length
      if d.rest.isEmpty ∨ !beforeBlank d.rest then some (word, d)
      else do
        let (breaks, e) ← pastFold? (·.pastTab? indent) (d.rest.length + 1) 0 d
        if !flow ∧ e.isBefore indent then return (word, e)
        let (more, f) ← plain? flow indent fuel e
        let gap := if breaks = 0 then d.rest.takeWhile isBlank else folded breaks
        return (if more.isEmpty then word else word ++ gap ++ more, f)

/-- A plain scalar inside something that is indented by `indent`. -/
def plainScalar? (flow : Bool) (indent : Int) (c : Cursor) : Option (List Char × Cursor) := do
  if flow ∧ c.isBefore (indent + 1) then none
  let (text, d) ← plain? flow (indent + 1) (c.rest.length + 1) c
  if text.isEmpty then none else some (text, d)

/-! ### Blocks -/

/-- What happens to the line breaks at the end of a block. -/
inductive Chomp where
  | strip
  | clip
  | keep
  deriving DecidableEq, Repr

/-- The header of a block behind its first character: how its end is treated, by how much it is
    indented, if that is said, and the end of its line. -/
def blockHeader? (c : Cursor) : Option (Chomp × Option Nat × Cursor) := do
  let marks := c.rest.takeWhile fun x => x == '+' || x == '-' || Decimal.isDigit x
  let signs := marks.filter (!Decimal.isDigit ·)
  let digits := marks.filter Decimal.isDigit
  if 1 < signs.length ∨ 1 < digits.length ∨ digits = ['0'] then none
  let chomp := if signs = ['+'] then .keep else if signs = ['-'] then .strip else .clip
  let d ← (c.skip marks.length).pastBlanks?
  if d.atLineEnd then some (chomp, Decimal.nat? digits, d) else none

/-- Passes over the indentation of a block and the blank lines in it. Gives the number of those and the
    furthest column that was reached. -/
def pastIndent (indent : Option Nat) : Nat → Nat → Nat → Cursor → Nat × Nat × Cursor
  | 0, n, widest, c => (n, widest, c)
  | fuel + 1, n, widest, c =>
    let blanks := c.rest.takeWhile (· == ' ')
    let d := c.skip (indent.elim blanks.length (min blanks.length))
    match d.rest with
    | '\n' :: _ => pastIndent indent fuel (n + 1) (max widest d.column) d.next
    | _ => (n, max widest d.column, d)

/-- How the lines of a block end: whether a line break is behind the last one, how many blank lines
    follow, and the place behind those. -/
structure Tail where
  broken : Bool
  blankLines : Nat
  cursor : Cursor

/-- The lines of a block behind those that end so, with how they end themselves. `deep` tells whether
    the last line in front begins with a blank; around such lines nothing is folded. -/
def blockLines (fold : Bool) (indent : Nat) : Nat → Bool → Tail → List Char × Tail
  | 0, _, t => ([], t)
  | fuel + 1, deep, t =>
    let c := t.cursor
    if c.column ≠ indent ∨ c.rest.isEmpty then ([], t)
    else
      let isDeep := (c.rest.head?.map isBlank).getD false
      let breaks := (if t.broken then 1 else 0) + t.blankLines
      let gap :=
        if fold ∧ t.broken ∧ !deep ∧ !isDeep then folded breaks else List.replicate breaks '\n'
      let line := c.rest.takeWhile (· != '\n')
      let d := c.skip line.length
      let (more, last) :=
        if d.rest.isEmpty then ([], ⟨false, 0, d⟩)
        else
          let (n, _, e) := pastIndent (some indent) d.rest.length 0 0 d.next
          blockLines fold indent fuel isDeep ⟨true, n, e⟩
      (gap ++ line ++ more, last)

/-- What a block ends with. -/
def blockEnd (chomp : Chomp) (indent : Nat) (t : Tail) : List Char :=
  let unended := t.cursor.rest.isEmpty && max indent 1 ≤ t.cursor.column
  let breaks := (if t.broken then 1 else 0) + (if unended then 1 else 0)
  match chomp with
  | .strip => []
  | .clip => List.replicate breaks '\n'
  | .keep => List.replicate (breaks + t.blankLines) '\n'

/-- A block at its first character, inside something that is indented by `indent`. -/
def blockScalar? (fold : Bool) (indent : Int) (c : Cursor) : Option (List Char × Cursor) := do
  let (chomp, digit, headerEnd) ← blockHeader? c.next
  let first := headerEnd.next
  if first.rest.head? = some '\t' then none
  let depth := digit.map fun d => (max indent 0).toNat + d
  let (n, widest, d) := pastIndent depth (first.rest.length + 1) 0 0 first
  if d.rest.isEmpty then
    let breaks := match chomp with
      | .strip => 0
      | .clip => 1
      | .keep => max n 1
    return (if headerEnd.rest.isEmpty then [] else List.replicate breaks '\n', d)
  let depth := depth.getD (max widest (indent + 1).toNat)
  if d.column < depth ∧ !d.isBefore (indent + 1) then none
  let (text, last) := blockLines fold depth (d.rest.length + 1) false ⟨false, n, d⟩
  return (text ++ blockEnd chomp depth last, last.cursor)

/-! ### Meaning -/

/-- Whether a word stands for a number that has no digits. Settings do not take those. -/
def isUnwritable (s : String) : Bool :=
  [".inf", ".Inf", ".INF", "+.inf", "+.Inf", "+.INF", "-.inf", "-.Inf", "-.INF",
    ".nan", ".NaN", ".NAN"].contains s

/-- An integer of 64 bits in a base. -/
def ofBase? (base : Nat) (cs : List Char) : Option Int := do
  let (negative, ds) := Decimal.sign cs
  if ds.isEmpty then none
  let n ← ds.foldl (fun n? c => do
    let d ← Hexadecimal.digit? c
    if d < base then return base * (← n?) + d else none) (some 0)
  let w ← Word.ofInt? (if negative then -(n : Int) else n)
  return w.toInt

/-- The integer that a plain scalar stands for. -/
def integer? (cs : List Char) : Option Int :=
  match cs with
  | '0' :: 'x' :: ds => ofBase? 16 ds
  | '0' :: 'o' :: ds => ofBase? 8 ds
  | '+' :: ds => (Decimal.int64? ds).map (·.toInt)
  | cs => (Decimal.int64? cs).map (·.toInt)

/-- The number that a plain scalar stands for; it has a digit. -/
def float? (cs : List Char) : Option Float :=
  if cs.any Decimal.isDigit then Decimal.float? cs else none

/-- What a plain scalar stands for. -/
def resolve? (s : String) : Option Value :=
  match s with
  | "" | "~" | "null" => some .null
  | "true" => some (.bool true)
  | "false" => some (.bool false)
  | _ =>
    match integer? s.toList, float? s.toList with
    | some n, _ => some (.int n)
    | none, some x => some (.float x)
    | none, none => if isUnwritable s then none else some (.string s)

/-- What a plain scalar stands for as a value of a type; nothing if it is none of that type. -/
def resolveAs? (type s : String) : Option (Option Value) :=
  match type with
  | "bool" =>
    some (if s = "true" then some (.bool true) else if s = "false" then some (.bool false) else none)
  | "int" => some ((Decimal.int64? s.toList).map fun w => .int w.toInt)
  | "float" => if isUnwritable s then none else some ((float? s.toList).map .float)
  | "null" => some (if s = "~" ∨ s = "null" then some .null else none)
  | _ => some (some (.string s))

end HandlerScript.Settings.Yaml
