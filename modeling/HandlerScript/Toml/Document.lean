import HandlerScript.Toml.Numeral
import HandlerScript.Toml.Text

/-! TOML documents.

    A document is read line by line, and the lines are then put together. Arrays may run over several
    lines with comments in between; tables in braces stay on one line. -/

namespace HandlerScript.Toml

/-- How many brackets may be open at once, and how many names a dotted name may have. -/
def depthLimit : Nat := 79

/-- The rest of the line behind a comment sign, passed over. -/
def skipComment (cs : List Char) : List Char := cs.dropWhile isPrintable

/-- What follows the end of a line: blanks, a comment and the line break or the end of the text. -/
def endOfLine? (cs : List Char) : Option (List Char) :=
  let rest := match skipSpaces cs with
    | '#' :: rest => skipComment rest
    | rest => rest
  if rest.isEmpty then some [] else afterBreak? rest

/-- What follows blanks, comments and line breaks; `fuel` bounds the number of lines. -/
def skipLines : Nat → List Char → List Char
  | 0, cs => cs
  | fuel + 1, cs =>
    match skipSpaces cs with
    | [] => []
    | rest =>
      match endOfLine? rest with
      | some rest => skipLines fuel rest
      | none => rest

/-! ### Names -/

/-- Characters of names without quotes. -/
def isNameChar (c : Char) : Bool := c.isAlphanum || c == '_' || c == '-'

/-- One name. -/
def name (cs : List Char) : Option (String × List Char) :=
  match shortString cs with
  | some (text, rest) => some (String.ofList text, rest)
  | none =>
    match cs.span isNameChar with
    | ([], _) => none
    | (text, rest) => some (String.ofList text, rest)

/-- Names with dots between them, and blanks around each. -/
def dottedName : Nat → List Char → Option (List String × List Char)
  | 0, _ => none
  | fuel + 1, cs => do
    let (first, rest) ← name (skipSpaces cs)
    match skipSpaces rest with
    | '.' :: rest =>
      let (path, rest) ← dottedName fuel rest
      return (first :: path, rest)
    | rest => return ([first], rest)

/-- A dotted name and the sign of an assignment behind it. -/
def target (cs : List Char) : Option (List String × List Char) := do
  let (path, rest) ← dottedName depthLimit cs
  return (path, skipSpaces (← Text.after? ['='] rest))

/-! ### Values -/

mutual

/-- A value. `depth` is the number of brackets that may still be opened. -/
def value (fuel depth : Nat) (cs : List Char) : Option (Value × List Char) :=
  match fuel, depth, cs with
  | 0, _, _ => none
  | _, _, [] => none
  | fuel + 1, depth + 1, '[' :: rest => do
    let (items, rest) ← arrayItems fuel depth (skipLines (rest.length + 1) rest)
    return (.array items, rest)
  | fuel + 1, depth + 1, '\x7b' :: rest => do
    let (entries, rest) ← inlineEntries fuel depth (skipSpaces rest)
    return (.table (toValues entries), rest)
  | _, _, c :: rest =>
    if c == '"' || c == '\'' then
      (string (c :: rest)).map fun (s, rest) => (.string (String.ofList s), rest)
    else
      let (w, rest) := word (c :: rest)
      (ofWord? w).map fun v => (v, rest)

/-- The items of an array up to its closing bracket; the last may be followed by a comma. -/
def arrayItems (fuel depth : Nat) (cs : List Char) : Option (List Value × List Char) :=
  match fuel, cs with
  | 0, _ => none
  | _, ']' :: rest => some ([], rest)
  | fuel + 1, cs => do
    let (v, rest) ← value fuel depth cs
    match skipLines (rest.length + 1) rest with
    | ']' :: rest => return ([v], rest)
    | ',' :: rest =>
      let (vs, rest) ← arrayItems fuel depth (skipLines (rest.length + 1) rest)
      return (v :: vs, rest)
    | _ => none

/-- The entries of a table in braces. -/
def inlineEntries (fuel depth : Nat) (cs : List Char) : Option (Entries × List Char) :=
  match cs with
  | '\x7d' :: rest => some ([], rest)
  | cs => inlineFrom fuel depth [] cs

/-- The entries of a table in braces up to its closing brace, added to those before. -/
def inlineFrom (fuel depth : Nat) (entries : Entries) (cs : List Char) : Option (Entries × List Char) :=
  match fuel with
  | 0 => none
  | fuel + 1 => do
    let (path, rest) ← target cs
    let (v, rest) ← value fuel depth rest
    let entries ← assign v true path entries
    match skipSpaces rest with
    | '\x7d' :: rest => return (entries, rest)
    | ',' :: rest => inlineFrom fuel depth entries rest
    | _ => none

end

/-! ### Lines -/

/-- The header of a table in brackets, behind the opening one. -/
def header (closing : List Char) (cs : List Char) : Option (List String × List Char) := do
  let (path, rest) ← dottedName depthLimit cs
  return (path, ← endOfLine? (← Text.after? closing rest))

/-- One line that says something, and what follows it. -/
def line : List Char → Option (Line × List Char)
  | '[' :: '[' :: rest => (header [']', ']'] rest).map fun (path, rest) => (.rowHeader path, rest)
  | '[' :: rest => (header [']'] rest).map fun (path, rest) => (.tableHeader path, rest)
  | cs => do
    let (path, rest) ← target cs
    let (v, rest) ← value (2 * cs.length + 2) depthLimit rest
    return (.assignment path v, ← endOfLine? rest)

/-- The lines of a document; `fuel` bounds their number. -/
def linesFrom : Nat → List Char → Option (List Line)
  | 0, _ => none
  | fuel + 1, cs =>
    match skipLines (cs.length + 1) cs with
    | [] => some []
    | rest => do
      let (first, rest) ← line rest
      return first :: (← linesFrom fuel rest)

/-- The entries of a document; a byte order mark in front does not count. -/
def read (source : List Char) : Option (List (String × Value)) := do
  let cs := match source with
    | '\ufeff' :: rest => rest
    | cs => cs
  return toValues (← build (← linesFrom (cs.length + 1) cs))

end HandlerScript.Toml
