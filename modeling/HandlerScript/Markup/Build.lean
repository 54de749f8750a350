import HandlerScript.Markup.Element
import HandlerScript.Markup.Reference
import HandlerScript.Node.Basic

/-! From written elements to command trees.

    Building walks an element in the order of the source: its attributes, its content, its closing
    tag. It fails at the first attribute that repeats a name and at the first closing tag that does
    not repeat the name of its element. The text of a node joins the text and the literal sections of
    its element; references are decoded in the text only. -/

namespace HandlerScript.Markup

/-- A well-read element that is no tree. -/
inductive Violation where
  | duplicateAttribute (name tag : String) (extent : Extent)
  | mismatchedClosing (expected found : String) (extent : Extent)
  deriving DecidableEq, Repr

def Violation.extent : Violation → Extent
  | .duplicateAttribute _ _ extent => extent
  | .mismatchedClosing _ _ extent => extent

def Violation.message : Violation → String
  | .duplicateAttribute name tag _ => "Duplicate attribute `" ++ name ++ "` on <" ++ tag ++ ">"
  | .mismatchedClosing expected found _ =>
    "Mismatched closing tag: expected </" ++ expected ++ ">, found </" ++ found ++ ">"

/-- Enters attributes into a table, each name once. -/
def tabulate (tag : String) : Table String → List Attribute → Except Violation (Table String)
  | table, [] => .ok table
  | table, a :: as =>
    let name := String.ofList a.name
    if table.contains name then .error (.duplicateAttribute name tag a.extent)
    else tabulate tag (table.insert name (String.ofList (decode a.raw))) as

/-- Checks that a closing tag repeats the name of its element. -/
def checkClosing (tag : String) : Option ClosingTag → Except Violation Unit
  | none => .ok ()
  | some closing =>
    let name := String.ofList closing.name
    if name = tag then .ok () else .error (.mismatchedClosing tag name closing.extent)

mutual

/-- What an item adds to its element: characters of text, and child nodes. -/
def Item.build : Item → Except Violation (List Char × List Node)
  | .text raw => .ok (decode raw, [])
  | .literal body => .ok (body, [])
  | .element tag items closing => do
    let name := String.ofList tag.name
    let attributes ← tabulate name ∅ tag.attributes
    let (text, children) ← buildAll items
    checkClosing name closing
    return ([], [⟨name, attributes, Text.nonBlank? (String.ofList text), children⟩])

/-- What a list of items adds, in order. -/
def buildAll : List Item → Except Violation (List Char × List Node)
  | [] => .ok ([], [])
  | item :: items => do
    let (text, nodes) ← item.build
    let (texts, nodes') ← buildAll items
    return (text ++ texts, nodes ++ nodes')

end

end HandlerScript.Markup
