import HandlerScript.Table
import HandlerScript.Text.Blank
import HandlerScript.Text.Letters

/-! Command trees.

    A node has a tag, attributes, an optional text and child nodes. Tags and attribute names are
    looked up ignoring the case of ASCII letters. -/

namespace HandlerScript

structure Node where
  tag : String
  attributes : Table String := ∅
  text : Option String := none
  children : List Node := []

namespace Node

instance : Inhabited Node := ⟨{ tag := "" }⟩

/-- Whether the node has the given tag. -/
def hasTag (node : Node) (tag : String) : Bool :=
  Text.sameLetters node.tag tag

/-- The value of an attribute. A name spelled exactly so comes first. -/
def attr? (node : Node) (name : String) : Option String :=
  match node.attributes.get? name with
  | some value => some value
  | none => (node.attributes.entries.find? fun e => Text.sameLetters e.1 name).map (·.2)

/-- The value of the first of several names that is an attribute. -/
def attrOf? (node : Node) (names : List String) : Option String :=
  names.findSome? node.attr?

/-- The first child with the given tag. -/
def child? (node : Node) (tag : String) : Option Node :=
  node.children.find? (·.hasTag tag)

/-- The children with the given tag, in order. -/
def childrenTagged (node : Node) (tag : String) : List Node :=
  node.children.filter (·.hasTag tag)

/-- The children with none of the given tags, in order. -/
def childrenExcept (node : Node) (tags : List String) : List Node :=
  node.children.filter fun c => !tags.any c.hasTag

/-- The text without the blanks around it, if anything is left. -/
def content? (node : Node) : Option String :=
  node.text.bind Text.nonBlank?

end Node

end HandlerScript
