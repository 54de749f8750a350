import HandlerScript.Node.Basic

/-! Handlers: named lists of commands, and the registry of those that can be called. -/

namespace HandlerScript

structure Handler where
  name : String
  body : List Node

/-- The handler that a node declares; it needs a name that is not blank. -/
def Handler.ofNode? (node : Node) : Option Handler :=
  ((node.attr? "name").bind Text.nonBlank?).map fun name => ⟨name, node.children⟩

/-- Handlers under their names, which are case-sensitive. -/
structure Registry where
  handlers : Table Handler := ∅

namespace Registry

instance : Inhabited Registry := ⟨{}⟩

def get? (r : Registry) (name : String) : Option Handler := r.handlers.get? name

def contains (r : Registry) (name : String) : Bool := r.handlers.contains name

/-- Registers a handler in place of any other of its name. -/
def register (r : Registry) (h : Handler) : Registry := ⟨r.handlers.insert h.name h⟩

def registerAll (r : Registry) (hs : List Handler) : Registry := hs.foldl register r

def names (r : Registry) : List String := r.handlers.names

def size (r : Registry) : Nat := r.handlers.size

def isEmpty (r : Registry) : Bool := r.handlers.isEmpty

end Registry

end HandlerScript
