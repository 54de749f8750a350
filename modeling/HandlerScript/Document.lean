import HandlerScript.Handler
import HandlerScript.Scalar.Json
import HandlerScript.Sha256
import HandlerScript.Source

/-! Documents: the variables and handlers that a command tree declares.

    Declarations may stand anywhere in the tree and are listed in its order. What is inside a
    declaration belongs to it and declares nothing. -/

namespace HandlerScript

/-- A variable and the value it starts with. -/
structure Variable where
  name : String
  value : Scalar

/-- The variable that a node declares; it needs a name that is not blank. The value is the attribute
    of that name, else the text, and is inferred unless a type is given. -/
def Variable.ofNode? (node : Node) : Option Variable :=
  ((node.attr? "name").bind Text.nonBlank?).map fun name =>
    let raw := ((node.attr? "value").orElse fun _ => node.content?).getD ""
    ⟨name, match node.attr? "type" with
      | some kind => Scalar.typed raw kind
      | none => Scalar.infer raw⟩

/-- The variables and handlers of a tree, and the fingerprint of the source it came from. -/
structure Document where
  vars : List Variable := []
  handlers : List Handler := []
  version : Option String := none

namespace Document

/-- Whether a node declares a variable. -/
def declaresVariable (node : Node) : Bool := node.hasTag "Variable" || node.hasTag "Var"

/-- Whether a node declares a handler. -/
def declaresHandler (node : Node) : Bool := node.hasTag "Handler"

mutual

/-- The variables declared by a node and below it. -/
def variablesIn : Node → List Variable
  | ⟨tag, attributes, text, children⟩ =>
    let node : Node := ⟨tag, attributes, text, children⟩
    if declaresVariable node then (Variable.ofNode? node).toList
    else if declaresHandler node then []
    else variablesInAll children

def variablesInAll : List Node → List Variable
  | [] => []
  | n :: ns => variablesIn n ++ variablesInAll ns

end

mutual

/-- The handlers declared by a node and below it. -/
def handlersIn : Node → List Handler
  | ⟨tag, attributes, text, children⟩ =>
    let node : Node := ⟨tag, attributes, text, children⟩
    if declaresVariable node then []
    else if declaresHandler node then (Handler.ofNode? node).toList
    else handlersInAll children

def handlersInAll : List Node → List Handler
  | [] => []
  | n :: ns => handlersIn n ++ handlersInAll ns

end

/-- The document of a tree that came from no source. -/
def ofTree (root : Node) : Document :=
  { vars := variablesIn root, handlers := handlersIn root }

/-- The document of a source. -/
def parse (source : String) : Except Source.Error Document :=
  match Source.parse source.toList with
  | .ok root => .ok { ofTree root with version := some (Sha256.hexText source) }
  | .error e => .error e

/-- The fault of a source that holds no document. -/
def errorMessage (source : String) (e : Source.Error) : String :=
  "Failed to parse document: " ++ e.display source.toList

/-- The document as a JSON object. -/
def toJson (d : Document) : Json.Value :=
  .object ([
    ("handlers", .array (d.handlers.map fun h =>
      .object [("body", .array (Node.toJsonList h.body)), ("name", .string h.name)])),
    ("variables", .array (d.vars.map fun v =>
      .object [("name", .string v.name), ("value", v.value.toJson)]))] ++
    (match d.version with
      | some h => [("version_hash", .string h)]
      | none => []))

end Document

end HandlerScript
