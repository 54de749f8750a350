import HandlerScript.Node.Basic

/-! Command trees written as markup.

    A node is written with its attributes in double quotes, then its text, then its children; one
    without text and children is closed in its own tag. In text the ampersand and the opening angle
    bracket are written as references, in attributes the ampersand and the quote, so that nothing
    written is read as anything else. -/

namespace HandlerScript

namespace Markup

/-- A character of an attribute value between double quotes. -/
def valueChar (c : Char) : List Char :=
  if c = '&' then "&amp;".toList else if c = '"' then "&quot;".toList else [c]

/-- A character of text between tags. -/
def textChar (c : Char) : List Char :=
  if c = '&' then "&amp;".toList else if c = '<' then "&lt;".toList else [c]

/-- An attribute with the blank before it. -/
def attributeMarkup (a : String × String) : List Char :=
  ' ' :: a.1.toList ++ '=' :: '"' :: a.2.toList.flatMap valueChar ++ ['"']

/-- The start of a tag up to its last bracket. -/
def openingMarkup (tag : String) (attributes : Table String) : List Char :=
  '<' :: tag.toList ++ attributes.entries.flatMap attributeMarkup

/-- The text of a node. -/
def textMarkup (text : Option String) : List Char :=
  (text.getD "").toList.flatMap textChar

end Markup

namespace Node

open Markup

mutual

/-- The node as markup. -/
def markup : Node → List Char
  | ⟨tag, attributes, text, children⟩ =>
    if text.isNone && children.isEmpty then openingMarkup tag attributes ++ ['/', '>']
    else openingMarkup tag attributes ++ '>' :: textMarkup text ++ markupAll children ++
      '<' :: '/' :: tag.toList ++ ['>']

/-- Nodes as markup, one behind the other. -/
def markupAll : List Node → List Char
  | [] => []
  | n :: ns => n.markup ++ markupAll ns

end

end Node

end HandlerScript
