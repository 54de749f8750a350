/-! Places in a YAML file.

    Indentation has a meaning in YAML, so a place knows its line and column besides what follows it.
    Between the parts of a file stand blanks, comments and line breaks; a comment needs a blank in front
    of it, and tabs do not indent. -/

namespace HandlerScript.Settings.Yaml

def isBlank (c : Char) : Bool := c == ' ' || c == '\t'

/-- Whether a character belongs to the writing of lists and tables in brackets. -/
def isFlowChar (c : Char) : Bool := c == ',' || c == '[' || c == ']' || c == '{' || c == '}'

/-- Characters of the names of directives and of the handles of tags. -/
def isWordChar (c : Char) : Bool := c.isAlphanum || c == '_' || c == '-'

/-- Whether a blank, a line break or the end of the file comes next. -/
def beforeBlank : List Char → Bool
  | [] => true
  | c :: _ => isBlank c || c == '\n'

/-- Whether a character of brackets comes next. -/
def beforeFlowChar (cs : List Char) : Bool := (cs.head?.map isFlowChar).getD false

/-- Whether the mark that begins a document comes next. -/
def beforeStart : List Char → Bool
  | '-' :: '-' :: '-' :: rest => beforeBlank rest
  | _ => false

/-- Whether the mark that ends a document comes next. -/
def beforeEnd : List Char → Bool
  | '.' :: '.' :: '.' :: rest => beforeBlank rest
  | _ => false

/-- A place in a file: what follows it, its line and column, how many characters are in front of it,
    and whether all of those on its line are blanks. -/
structure Cursor where
  rest : List Char
  line : Nat := 0
  column : Nat := 0
  passed : Nat := 0
  leading : Bool := true

namespace Cursor

/-- The place behind the next character. -/
def next (c : Cursor) : Cursor :=
  match c.rest with
  | [] => c
  | '\n' :: rest => ⟨rest, c.line + 1, 0, c.passed + 1, true⟩
  | x :: rest => ⟨rest, c.line, c.column + 1, c.passed + 1, c.leading && isBlank x⟩

/-- The place behind a number of characters. -/
def skip : Nat → Cursor → Cursor
  | 0, c => c
  | n + 1, c => skip n c.next

/-- The place from which only these characters follow. -/
def leaving (rest : List Char) (c : Cursor) : Cursor := c.skip (c.rest.length - rest.length)

def skipWhile (p : Char → Bool) (c : Cursor) : Cursor := c.skip (c.rest.takeWhile p).length

/-- The end of the line. -/
def lineEnd (c : Cursor) : Cursor := c.skipWhile (· != '\n')

/-- Whether nothing follows on the line. -/
def atLineEnd (c : Cursor) : Bool :=
  match c.rest with
  | [] => true
  | x :: _ => x == '\n'

/-- Whether a mark between documents stands here, at the start of a line. -/
def atMarker (c : Cursor) : Bool := c.column == 0 && (beforeStart c.rest || beforeEnd c.rest)

/-- Whether a column lies in front of an indentation. -/
def isBefore (c : Cursor) (indent : Int) : Bool := (c.column : Int) < indent

/-- Passes over blanks, and over a comment behind them. -/
def pastBlanks? (c : Cursor) : Option Cursor :=
  let d := c.skipWhile isBlank
  match d.rest with
  | '#' :: _ => if d.column = c.column then none else some d.lineEnd
  | _ => some d

/-- Passes over a tab at the start of a line. In front of the indentation it may only stand in a line
    without contents. -/
def pastTab? (indent : Int) (c : Cursor) : Option Cursor :=
  if c.leading ∧ c.isBefore indent then
    c.pastBlanks?.bind fun d => if d.atLineEnd then some d else none
  else some c.next

/-- Passes over blanks, comments and line breaks. -/
def pastGap? (indent : Int) : Nat → Cursor → Option Cursor
  | 0, c => some c
  | fuel + 1, c =>
    match c.rest with
    | '\t' :: _ => (c.pastTab? indent).bind (pastGap? indent fuel)
    | ' ' :: _ | '\n' :: _ => pastGap? indent fuel c.next
    | '#' :: _ => pastGap? indent fuel c.lineEnd
    | _ => some c

/-- The next thing in the file. -/
def toNext? (indent : Int) (c : Cursor) : Option Cursor := pastGap? indent (c.rest.length + 1) c

end Cursor

end HandlerScript.Settings.Yaml
