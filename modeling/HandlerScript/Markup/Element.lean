import HandlerScript.Text.Pieces

/-! Markup elements as they are written.

    A document is one element, with comments and blanks around it and a declaration before it. An
    element has a name, attributes in quotes, and content between its tags: text, literal sections,
    comments and elements. Reading goes from left to right and never takes a step back that matters:
    where it is stuck, it knows what it looked for last. -/

namespace HandlerScript.Markup

/-- What was looked for where reading got stuck. -/
inductive Expected where
  | endOfInput
  | element
  | nextAttribute
  | name
  | content
  deriving DecidableEq, Repr

/-- Where reading got stuck, as the number of characters left. -/
structure Stuck where
  expected : Expected
  left : Nat
  deriving DecidableEq, Repr

/-- A piece of the source, by the numbers of characters left at its start and behind it. -/
structure Extent where
  left : Nat
  after : Nat
  deriving DecidableEq, Repr

/-- An attribute as written, with the blanks before it in its extent. -/
structure Attribute where
  name : List Char
  raw : List Char
  extent : Extent
  deriving DecidableEq, Repr

structure Tag where
  name : List Char
  attributes : List Attribute
  deriving DecidableEq, Repr

structure ClosingTag where
  name : List Char
  extent : Extent
  deriving DecidableEq, Repr

/-- The content of an element. An element without a closing tag is one closed in its own tag. -/
inductive Item where
  | text (raw : List Char)
  | literal (body : List Char)
  | element (tag : Tag) (items : List Item) (closing : Option ClosingTag)

/-! ### Characters -/

def isSpace (c : Char) : Bool :=
  c == ' ' || c == '\t' || c == '\r' || c == '\n'

def isLetter (c : Char) : Bool :=
  ('a' ≤ c && c ≤ 'z') || ('A' ≤ c && c ≤ 'Z')

def isNameStart (c : Char) : Bool :=
  isLetter c || c == '_' || c == '$'

def isNameChar (c : Char) : Bool :=
  isLetter c || ('0' ≤ c && c ≤ '9') || c == '_' || c == '-' || c == '.' || c == ':'

def skipSpaces (cs : List Char) : List Char := cs.dropWhile isSpace

/-- A name at the front, and the rest. -/
def name? : List Char → Option (List Char × List Char)
  | c :: cs =>
    if isNameStart c then
      let (name, rest) := cs.span isNameChar
      some (c :: name, rest)
    else none
  | [] => none

/-- The body and the rest of a section between two marks. -/
def section? (opening closing : String) (cs : List Char) : Option (List Char × List Char) :=
  (Text.after? opening.toList cs).bind (Text.cut? closing.toList)

def comment? (cs : List Char) : Option (List Char × List Char) := section? "<!--" "-->" cs

def literal? (cs : List Char) : Option (List Char × List Char) := section? "<![CDATA[" "]]>" cs

/-! ### Tags -/

/-- A value in quotes of either kind, and the rest. -/
def quoted? : List Char → Option (List Char × List Char)
  | '"' :: cs => Text.cut? ['"'] cs
  | '\'' :: cs => Text.cut? ['\''] cs
  | _ => none

/-- An equals sign between optional blanks, and a value in quotes. -/
def assigned? (cs : List Char) : Option (List Char × List Char) :=
  match skipSpaces cs with
  | '=' :: rest => quoted? (skipSpaces rest)
  | _ => none

/-- An attribute with the blanks before it. -/
def attributeAt (cs : List Char) : Except Stuck (Attribute × List Char) :=
  let rest := skipSpaces cs
  if rest.length = cs.length then .error ⟨.nextAttribute, cs.length⟩
  else match name? rest with
    | none => .error ⟨.name, rest.length⟩
    | some (name, rest) =>
      match assigned? rest with
      | none => .error ⟨.nextAttribute, cs.length⟩
      | some (raw, rest) => .ok (⟨name, raw, ⟨cs.length, rest.length⟩⟩, rest)

/-- All attributes at the front, where the next one got stuck, and the rest; `fuel` bounds their
    number. -/
def attributesAt : Nat → List Char → List Attribute × Stuck × List Char
  | 0, cs => ([], ⟨.nextAttribute, cs.length⟩, cs)
  | fuel + 1, cs =>
    match attributeAt cs with
    | .error stuck => ([], stuck, cs)
    | .ok (a, rest) =>
      let (as, stuck, rest) := attributesAt fuel rest
      (a :: as, stuck, rest)

/-- How a start tag ends. -/
inductive TagEnd where
  | opened
  | closed
  deriving DecidableEq, Repr

/-- A start tag behind its angle bracket. -/
def startTag (cs : List Char) : Except Stuck (Tag × TagEnd × List Char) :=
  match name? cs with
  | none => .error ⟨.name, cs.length⟩
  | some (name, rest) =>
    let (as, stuck, rest) := attributesAt rest.length rest
    match skipSpaces rest with
    | '/' :: '>' :: rest => .ok (⟨name, as⟩, .closed, rest)
    | '>' :: rest => .ok (⟨name, as⟩, .opened, rest)
    | _ => .error stuck

/-- A closing tag behind its angle bracket and slash. A name that does not end the tag is reported
    where an element was looked for before, at the slash. -/
def closingTag (cs : List Char) : Except Stuck (ClosingTag × List Char) :=
  match name? cs with
  | none => .error ⟨.name, cs.length⟩
  | some (name, rest) =>
    match skipSpaces rest with
    | '>' :: rest => .ok (⟨name, ⟨cs.length + 2, rest.length⟩⟩, rest)
    | _ => .error ⟨.name, cs.length + 1⟩

/-! ### Elements -/

mutual

/-- One element; `fuel` bounds the number of elements and other items in it. -/
def element (fuel : Nat) (cs : List Char) : Except Stuck (Item × List Char) :=
  match fuel with
  | 0 => .error ⟨.element, cs.length⟩
  | fuel + 1 =>
    match cs with
    | '<' :: rest => do
      let (tag, ending, rest) ← startTag rest
      match ending with
      | .closed => return (.element tag [] none, rest)
      | .opened =>
        let (items, closing, rest) ← content fuel rest
        return (.element tag items (some closing), rest)
    | _ => .error ⟨.element, cs.length⟩

/-- Content up to and with the closing tag. -/
def content (fuel : Nat) (cs : List Char) : Except Stuck (List Item × ClosingTag × List Char) :=
  match fuel with
  | 0 => .error ⟨.content, cs.length⟩
  | fuel + 1 =>
    match cs with
    | [] => .error ⟨.content, 0⟩
    | '<' :: '/' :: rest => do
      let (closing, rest) ← closingTag rest
      return ([], closing, rest)
    | '<' :: rest =>
      match comment? cs with
      | some (_, rest) => content fuel rest
      | none =>
        match literal? cs with
        | some (body, rest) => do
          let (items, closing, rest) ← content fuel rest
          return (.literal body :: items, closing, rest)
        | none => do
          let (item, rest) ← element fuel ('<' :: rest)
          let (items, closing, rest) ← content fuel rest
          return (item :: items, closing, rest)
    | c :: rest => do
      let (raw, rest) := (c :: rest).span (· != '<')
      let (items, closing, rest) ← content fuel rest
      return (.text raw :: items, closing, rest)

end

/-! ### Documents -/

/-- What is left behind blanks and comments; `fuel` bounds their number. -/
def skipMisc : Nat → List Char → List Char
  | 0, cs => cs
  | fuel + 1, cs =>
    match comment? (skipSpaces cs) with
    | some (_, rest) => skipMisc fuel rest
    | none => skipSpaces cs

/-- What is left behind the declaration, if there is one. -/
def skipDeclaration (cs : List Char) : List Char :=
  match section? "<?" "?>" cs with
  | some (_, rest) => rest
  | none => cs

/-- The one element of a document. -/
def document (cs : List Char) : Except Stuck Item := do
  let front := skipDeclaration (skipSpaces cs)
  let (root, rest) ← element (cs.length + 1) (skipMisc front.length front)
  match skipMisc rest.length rest with
  | [] => return root
  | rest => .error ⟨.endOfInput, rest.length⟩

end HandlerScript.Markup
