import HandlerScript.Number.Hexadecimal
import HandlerScript.Settings.Tree

/-! Settings in INI files.

    A file has sections of names with values, and names in front of the first section are on their
    own. A section that is opened again starts anew. All values are texts; a comment has a line for
    itself. -/

namespace HandlerScript.Settings.Ini

/-- The character that four hexadecimal digits spell; a plus sign may stand for the first. -/
def charOfHex? (digits : List Char) : Option Char := do
  let n ← match digits with
    | '+' :: ds => Hexadecimal.nat? ds
    | ds => Hexadecimal.nat? ds
  if digits.length = 4 ∧ n.isValidChar then some (Char.ofNat n) else none

/-- What stands behind a backslash, and the rest. A line break does not count. -/
def escape : List Char → Option (List Char × List Char)
  | [] => none
  | '0' :: rest => some (['\x00'], rest)
  | 'a' :: rest => some (['\x07'], rest)
  | 'b' :: rest => some (['\x08'], rest)
  | 't' :: rest => some (['\t'], rest)
  | 'r' :: rest => some (['\r'], rest)
  | 'n' :: rest => some (['\n'], rest)
  | '\n' :: rest => some ([], rest)
  | 'x' :: rest => (charOfHex? (rest.take 4)).map fun c => ([c], rest.drop 4)
  | c :: rest => some ([c], rest)

/-- The text up to a character that ends it, and the rest with that character. `closesAtEnd` tells whether
    the end of the file ends it, too. -/
def textUntil (isEnd : Char → Bool) (closesAtEnd : Bool) :
    Nat → List Char → Option (List Char × List Char)
  | _, [] => if closesAtEnd then some ([], []) else none
  | 0, _ :: _ => none
  | fuel + 1, c :: cs =>
    if isEnd c then some ([], c :: cs)
    else do
      let (text, rest) ← if c = '\\' then escape cs else some ([c], cs)
      let (more, rest) ← textUntil isEnd closesAtEnd fuel rest
      return (text ++ more, rest)

/-- The text up to the end of a line. -/
def lineText (cs : List Char) : Option (List Char × List Char) :=
  textUntil (fun c => c == '\n' || c == '\r') true cs.length cs

/-- Parts of a value: texts in quotes, and what follows them on the line without blanks at its end.
    `first` tells whether no part has been read. -/
def valueFrom (first : Bool) : Nat → List Char → Option (List Char × List Char)
  | 0, cs => if cs.isEmpty then some ([], []) else none
  | fuel + 1, cs =>
    match cs with
    | [] => some ([], [])
    | c :: rest =>
      if c = '"' ∨ c = '\'' then do
        let (text, rest) ← textUntil (· == c) false rest.length rest
        let (more, rest) ← valueFrom false fuel (rest.drop 1)
        return (text ++ more, rest)
      else do
        let (text, rest) ← lineText (c :: rest)
        return (if first then Text.trimmed text else Text.dropEndWhile Text.isBlank text, rest)

/-- The value behind an equals sign or a colon. -/
def value (cs : List Char) : Option (List Char × List Char) :=
  let cs := cs.dropWhile fun c => Text.isBlank c && c != '\n' && c != '\r'
  valueFrom true (cs.length + 1) cs

/-- Drops blanks; tells whether what is left begins a line. -/
def skipBlanks : Bool → List Char → Bool × List Char
  | atStart, [] => (atStart, [])
  | atStart, c :: cs => if Text.isBlank c then skipBlanks (c == '\n') cs else (atStart, c :: cs)

/-- A part of a file. -/
inductive Entry where
  | opening (name : String)
  | setting (name value : String)

/-- The parts of a file. -/
def entries : Nat → Bool → List Char → Option (List Entry)
  | 0, _, _ => none
  | fuel + 1, atStart, cs =>
    match skipBlanks atStart cs with
    | (_, []) => some []
    | (atStart, c :: rest) =>
      if c = ';' ∨ c = '#' then
        if atStart then entries fuel true ((rest.dropWhile (· != '\n')).drop 1) else none
      else if c = '[' then do
        let (name, rest) ← textUntil (· == ']') false rest.length rest
        return .opening (Text.trim (String.ofList name)) :: (← entries fuel false (rest.drop 1))
      else do
        let isEnd (c : Char) : Bool := c == '=' || c == ':'
        let (name, rest) ← textUntil isEnd false (rest.length + 1) (c :: rest)
        let name := Text.trim (String.ofList name)
        if name.isEmpty then none
        let (value, rest) ← value (rest.drop 1)
        return .setting name (String.ofList value) :: (← entries fuel false rest)

/-- The tree of the parts of a file, given what has been read and the open section. -/
def build : Tree → Option String → List Entry → Tree
  | tree, _, [] => tree
  | tree, _, .opening name :: es => build (put name (.table []) tree) (some name) es
  | tree, none, .setting name value :: es => build (put name (.string value) tree) none es
  | tree, some s, .setting name value :: es =>
    build (put s (.table (put name (.string value) (Tree.at tree s).entries)) tree) (some s) es

/-- The settings in a file. -/
def read (source : List Char) : Option Tree :=
  (entries (source.length + 1) true source).map (build [] none)

end HandlerScript.Settings.Ini
