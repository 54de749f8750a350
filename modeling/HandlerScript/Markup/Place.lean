import HandlerScript.Markup.Element
import HandlerScript.Number.Decimal
import HandlerScript.Text.Bytes

/-! Places in markup sources, and the picture of a place that reading got stuck at.

    Lines and columns count from zero inside the program and from one in messages; a line feed ends a
    line, and columns count characters. -/

namespace HandlerScript.Markup

/-- A piece of the source in bytes, and the line and column of its start. -/
structure Span where
  start : Nat
  stop : Nat
  line : Nat
  column : Nat
  deriving DecidableEq, Repr

/-- The line and column behind some characters, from a line and column before them. -/
def advance : Nat × Nat → List Char → Nat × Nat
  | place, [] => place
  | (line, column), c :: cs => advance (if c = '\n' then (line + 1, 0) else (line, column + 1)) cs

/-- The line and column behind some characters. -/
def placeAfter (cs : List Char) : Nat × Nat := advance (0, 0) cs

/-- What stands before the last `left` characters. -/
def before (source : List Char) (left : Nat) : List Char := source.take (source.length - left)

/-- The span of an extent. -/
def Extent.span (source : List Char) (e : Extent) : Span :=
  let front := before source e.left
  let (line, column) := placeAfter front
  ⟨Text.byteCount front, Text.byteCount (before source e.after), line, column⟩

def Expected.message : Expected → String
  | .endOfInput => "EOI"
  | .element => "element"
  | .nextAttribute => "attribute"
  | .name => "name"
  | .content => "element, closing_tag, text, or cdata"

/-- The characters of the last line. -/
def lastLine (cs : List Char) : List Char :=
  (cs.reverse.takeWhile (· != '\n')).reverse

/-- The rest of a line with its line feed. -/
def restOfLine : List Char → List Char
  | [] => []
  | c :: cs => if c = '\n' then [c] else c :: restOfLine cs

/-- A line as it is shown: line ends are left out, or made visible where one of them is the place in
    question. -/
def shownLine (atLineEnd : Bool) (line : List Char) : List Char :=
  if atLineEnd then
    line.map fun c => if c = '\n' then '␊' else if c = '\r' then '␍' else c
  else line.filter fun c => c != '\n' && c != '\r'

/-- The picture of a place: its line and column, the line itself with a mark under the place, and what
    was looked for there. -/
def Stuck.message (source : List Char) (stuck : Stuck) : String :=
  let front := before source stuck.left
  let behind := source.drop (source.length - stuck.left)
  let (line, column) := placeAfter front
  let number := Decimal.natText (line + 1)
  let atLineEnd := behind.head? == some '\n' || behind.head? == some '\r'
  let shown := shownLine atLineEnd (lastLine front ++ restOfLine behind)
  let under := (shown.take column).map fun c => if c = '\t' then '\t' else ' '
  let margin := String.ofList (number.toList.map fun _ => ' ')
  margin ++ "--> " ++ number ++ ":" ++ Decimal.natText (column + 1) ++ "\n" ++
    margin ++ " |\n" ++
    number ++ " | " ++ String.ofList shown ++ "\n" ++
    margin ++ " | " ++ String.ofList under ++ "^---\n" ++
    margin ++ " |\n" ++
    margin ++ " = expected " ++ stuck.expected.message

end HandlerScript.Markup
