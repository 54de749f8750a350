import HandlerScript.Host
import HandlerScript.Node.Basic
import HandlerScript.Store

/-! Texts with references in braces.

    A text is cut into plain characters and tokens. A token is a pair of braces with no brace between
    them; every other brace is a plain character. Each token that refers to a variable or a widget
    property is replaced by its text, and all else stays as it is, so that data with braces of its
    own passes through unchanged. What is inserted is not looked at again. -/

namespace HandlerScript

namespace Template

/-- A part of a text. -/
inductive Piece where
  | char (c : Char)
  | token (inner : List Char)
  deriving DecidableEq, Repr

/-- An opening brace without its partner, and the characters read behind it, last first. -/
def unmatched (acc : List Char) : List Piece :=
  .char '\x7b' :: acc.reverse.map .char

/-- Cuts a text, given the characters behind the last open brace, last first. -/
def scan : Option (List Char) → List Char → List Piece
  | none, [] => []
  | some acc, [] => unmatched acc
  | none, c :: cs => if c = '\x7b' then scan (some []) cs else .char c :: scan none cs
  | some acc, c :: cs =>
    if c = '\x7d' then .token acc.reverse :: scan none cs
    else if c = '\x7b' then unmatched acc ++ scan (some []) cs
    else scan (some (c :: acc)) cs

/-- The parts of a text. -/
def pieces (cs : List Char) : List Piece := scan none cs

/-- A part as it was written. -/
def Piece.written : Piece → List Char
  | .char c => [c]
  | .token inner => '\x7b' :: inner ++ ['\x7d']

/-- A part after substitution. -/
def Piece.filled (lookup? : List Char → Option (List Char)) : Piece → List Char
  | .char c => [c]
  | .token inner => (lookup? inner).getD (Piece.token inner).written

/-- The text with its tokens replaced. -/
def fill (lookup? : List Char → Option (List Char)) (cs : List Char) : List Char :=
  (pieces cs).flatMap (Piece.filled lookup?)

/-- Characters that occur in data rather than in references. -/
def isDataChar (c : Char) : Bool :=
  c == '"' || c == '\'' || c == '[' || c == ']' || c == ':' || c == ',' || c == '\n' || c == '\r'

/-- Whether the inside of a token can be a reference. -/
def isReference (inner : List Char) : Bool := !inner.any isDataChar

/-- The inside of a text that is one pair of braces without braces in it, blanks around it apart. -/
def braced? (cs : List Char) : Option (List Char) :=
  match Text.trimmed cs with
  | '\x7b' :: rest =>
    match rest.span fun c => c != '\x7b' && c != '\x7d' with
    | (inner, ['\x7d']) => some inner
    | _ => none
  | _ => none

/-- Whether a text is one token that looks like a reference. -/
def isBareToken (cs : List Char) : Bool :=
  (braced? cs).any isReference

end Template

/-- What references are looked up in. -/
structure Scope where
  store : Store
  host : Host
  sender : Option String

namespace Scope

/-- The value of a widget property by a text with exactly one dot in it. -/
def property? (s : Scope) (name : List Char) : Option PropertyValue :=
  match name.span (· != '.') with
  | (widget, _ :: property) =>
    if property.contains '.' then none
    else (s.host.find? s.sender (String.ofList widget)).bind fun w =>
      s.host.property? w (Text.trim (String.ofList property))
  | (_, []) => none

/-- The text that the inside of a token refers to: a widget property, else a variable. -/
def lookup? (s : Scope) (inner : List Char) : Option (List Char) :=
  if !Template.isReference inner then none
  else
    let name := Text.trimmed inner
    if name.isEmpty then none
    else match s.property? name with
      | some value => some value.text.toList
      | none => (s.store.get? (String.ofList name)).map (·.text.toList)

/-- The text with its references replaced. -/
def resolve (s : Scope) (text : String) : String :=
  String.ofList (Template.fill s.lookup? text.toList)

/-- The resolved value of an attribute. -/
def attr? (s : Scope) (node : Node) (name : String) : Option String :=
  (node.attr? name).map s.resolve

/-- The resolved value of the first of several attributes that is present. -/
def attrOf? (s : Scope) (node : Node) (names : List String) : Option String :=
  (node.attrOf? names).map s.resolve

/-- The resolved value of an attribute, empty if it is absent. -/
def attrText (s : Scope) (node : Node) (name : String) : String :=
  (s.attr? node name).getD ""

/-- The name of the variable that a command writes. -/
def target? (s : Scope) (node : Node) : Option String :=
  (s.attrOf? node ["var", "name"]).bind Text.nonBlank?

/-- The message of a command: an attribute, else the text of the node. -/
def messageText (s : Scope) (node : Node) : String :=
  match (node.attr? "message").orElse fun _ => node.content? with
  | some raw => s.resolve raw
  | none => ""

/-- The widget that a text names. -/
def widget? (s : Scope) (text : String) : Option String :=
  s.host.find? s.sender text

end Scope

end HandlerScript
