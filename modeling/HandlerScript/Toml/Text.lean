import HandlerScript.Number.Hexadecimal
import HandlerScript.Text.Pieces

/-! Strings in TOML.

    A string is written between double quotes, with escapes, or between single quotes, as it is. Three
    quotes on either side let it run over several lines; a line break right behind the opening quotes
    does not count. -/

namespace HandlerScript.Toml

/-- Blanks within a line. -/
def isSpace (c : Char) : Bool := c == ' ' || c == '\t'

def skipSpaces (cs : List Char) : List Char := cs.dropWhile isSpace

/-- Characters that texts and comments may hold. -/
def isPrintable (c : Char) : Bool := c == '\t' || (' ' ≤ c && c != '\x7f')

/-- What follows a line break. -/
def afterBreak? : List Char → Option (List Char)
  | '\n' :: rest => some rest
  | '\r' :: '\n' :: rest => some rest
  | _ => none

/-- The character that a fixed number of hexadecimal digits spells. -/
def charOfHex (count : Nat) (cs : List Char) : Option (Char × List Char) := do
  let digits := cs.take count
  if digits.length != count then none
  let n ← Hexadecimal.nat? digits
  if n.isValidChar then some (Char.ofNat n, cs.drop count) else none

/-- The character behind a backslash. -/
def escape : List Char → Option (Char × List Char)
  | 'b' :: rest => some ('\x08', rest)
  | 't' :: rest => some ('\t', rest)
  | 'n' :: rest => some ('\n', rest)
  | 'f' :: rest => some ('\x0c', rest)
  | 'r' :: rest => some ('\r', rest)
  | '"' :: rest => some ('"', rest)
  | '\\' :: rest => some ('\\', rest)
  | 'u' :: rest => charOfHex 4 rest
  | 'U' :: rest => charOfHex 8 rest
  | _ => none

/-- A string with escapes on one line, behind its opening quote; `fuel` bounds its characters. -/
def basicFrom : Nat → List Char → Option (List Char × List Char)
  | _, '"' :: rest => some ([], rest)
  | fuel + 1, '\\' :: rest => do
    let (c, rest) ← escape rest
    let (cs, rest) ← basicFrom fuel rest
    return (c :: cs, rest)
  | fuel + 1, c :: rest => do
    if !isPrintable c then none
    let (cs, rest) ← basicFrom fuel rest
    return (c :: cs, rest)
  | _, _ => none

/-- A string as it is on one line, behind its opening quote. -/
def literal (cs : List Char) : Option (List Char × List Char) :=
  match cs.span fun c => isPrintable c && c != '\'' with
  | (text, '\'' :: rest) => some (text, rest)
  | _ => none

/-- Quotes within a long string: up to two belong to its text, and of three to five the last three
    close it. The result tells whether the string goes on. -/
def closing (quotes : List Char) : Option (List Char × Bool) :=
  if quotes.length ≤ 2 then some (quotes, true)
  else if quotes.length ≤ 5 then some (quotes.drop 3, false)
  else none

/-- What follows blanks and line breaks. -/
def skipBlanks : List Char → List Char
  | '\r' :: '\n' :: rest => skipBlanks rest
  | c :: rest => if isSpace c || c == '\n' then skipBlanks rest else c :: rest
  | [] => []

/-- What follows a backslash at the end of a line and the blank lines behind it. -/
def afterContinuation? (cs : List Char) : Option (List Char) :=
  (afterBreak? (skipSpaces cs)).map skipBlanks

/-- A long string behind its opening quotes. Line breaks of both kinds are read as line feeds. -/
def longFrom (quote : Char) (escapes : Bool) : Nat → List Char → Option (List Char × List Char)
  | 0, _ => none
  | _, [] => none
  | fuel + 1, c :: rest => do
    if c == quote then
      let (quotes, behind) := (c :: rest).span (· == quote)
      match ← closing quotes with
      | (text, false) => return (text, behind)
      | (text, true) =>
        let (cs, rest) ← longFrom quote escapes fuel behind
        return (text ++ cs, rest)
    else if let some rest := afterBreak? (c :: rest) then
      let (cs, rest) ← longFrom quote escapes fuel rest
      return ('\n' :: cs, rest)
    else if c == '\\' && escapes then
      match afterContinuation? rest with
      | some rest => longFrom quote escapes fuel rest
      | none =>
        let (c, rest) ← escape rest
        let (cs, rest) ← longFrom quote escapes fuel rest
        return (c :: cs, rest)
    else
      if !isPrintable c then none
      let (cs, rest) ← longFrom quote escapes fuel rest
      return (c :: cs, rest)

/-- A long string behind its opening quotes, less a line break in front. -/
def long (quote : Char) (escapes : Bool) (cs : List Char) : Option (List Char × List Char) :=
  longFrom quote escapes (cs.length + 1) ((afterBreak? cs).getD cs)

/-- A string on one line. -/
def shortString : List Char → Option (List Char × List Char)
  | '"' :: rest => basicFrom rest.length rest
  | '\'' :: rest => literal rest
  | _ => none

/-- A string of any kind. -/
def string : List Char → Option (List Char × List Char)
  | '"' :: '"' :: '"' :: rest => long '"' true rest
  | '\'' :: '\'' :: '\'' :: rest => long '\'' false rest
  | cs => shortString cs

/-! ### Writing -/

/-- The greatest number of equal characters in a row, given how many end the text before. -/
def longestRun (x : Char) : Nat → List Char → Nat
  | n, [] => n
  | n, c :: cs => if c = x then longestRun x (n + 1) cs else max n (longestRun x 0 cs)

/-- Control characters that can only be written as escapes. -/
def needsEscape (c : Char) : Bool :=
  c != '\t' && c != '\n' && (c.toNat < 0x20 || c.toNat == 0x7f)

/-- A character inside double quotes. -/
def escaped (onLines : Bool) (c : Char) : List Char :=
  if c = '\x08' then ['\\', 'b']
  else if c = '\t' then ['\\', 't']
  else if c = '\n' then (if onLines then ['\n'] else ['\\', 'n'])
  else if c = '\x0c' then ['\\', 'f']
  else if c = '\r' then ['\\', 'r']
  else if c = '\\' then ['\\', '\\']
  else if needsEscape c then
    let digits := (Hexadecimal.digits c.toNat).map Char.toUpper
    '\\' :: 'u' :: List.replicate (4 - digits.length) '0' ++ digits
  else [c]

/-- The inside of double quotes. Where more than `free` quotes stand in a row, those beyond are
    escaped, and the count starts again. -/
def escapedFrom (onLines : Bool) (free : Nat) : Nat → List Char → List Char
  | _, [] => []
  | run, c :: cs =>
    if c = '"' then
      if run < free then '"' :: escapedFrom onLines free (run + 1) cs
      else '\\' :: '"' :: escapedFrom onLines free 0 cs
    else escaped onLines c ++ escapedFrom onLines free 0 cs

/-- A text between double quotes. -/
def basicQuoted (cs : List Char) : List Char := '"' :: escapedFrom false 0 0 cs ++ ['"']

/-- A text between three quotes on either side; one of several lines starts on a line of its own. -/
def longQuoted (quote : Char) (inner cs : List Char) : List Char :=
  let quotes := List.replicate 3 quote
  quotes ++ (if cs.contains '\n' then ['\n'] else []) ++ inner ++ quotes

/-- A text as a TOML string, in the plainest form that can hold it: double quotes if nothing needs an
    escape, else single quotes, else three double or three single quotes, else escapes. -/
def quoted (cs : List Char) : List Char :=
  let needs := cs.any needsEscape
  let lines := cs.contains '\n'
  let singles := longestRun '\'' 0 cs
  let doubles := longestRun '"' 0 cs
  let backslash := cs.contains '\\'
  if !needs && !lines && !backslash && doubles = 0 then basicQuoted cs
  else if !needs && !lines && singles = 0 then '\'' :: cs ++ ['\'']
  else if !needs && !backslash && doubles ≤ 2 then longQuoted '"' (escapedFrom true 2 0 cs) cs
  else if !needs && singles ≤ 2 then longQuoted '\'' cs cs
  else if lines then longQuoted '"' (escapedFrom true 2 0 cs) cs
  else basicQuoted cs

end HandlerScript.Toml
