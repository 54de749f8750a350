import HandlerScript.Json.Value
import HandlerScript.Node.Basic
import HandlerScript.Text.Quoted

/-! The JSON form of command trees.

    A node is an object with a tag and, where there is something to say, attributes, text and
    children. Reading also takes a list of the four in this order, passes over members it does not
    know, and lets the last of equal attribute names win. The first fault in the text is the one
    reported, whether it is one of JSON or one of the shape of a node. -/

namespace HandlerScript

open Json (Read Failure Value)

/-! ### Writing -/

namespace Node

mutual

/-- The node as a JSON object; what is empty is left out. -/
def toJson : Node → Value
  | ⟨tag, attributes, text, children⟩ =>
    .object ((if attributes.isEmpty then []
        else [("attributes", .object (attributes.entries.map fun e => (e.1, .string e.2)))]) ++
      (if children.isEmpty then [] else [("children", .array (toJsonList children))]) ++
      [("tag", .string tag)] ++
      (match text with
        | some t => [("text", .string t)]
        | none => []))

def toJsonList : List Node → List Value
  | [] => []
  | n :: ns => n.toJson :: toJsonList ns

end

end Node

/-! ### Reading -/

namespace Json

/-- The failure of finding a value of another kind. -/
def mismatch (expected : String) (cs : List Char) : Failure :=
  let behind (found : Found) (rest : List Char) : Failure :=
    ⟨.wrongType found expected, Text.byteCount rest⟩
  let numeral (r : Read (Number × List Char)) : Failure :=
    match r with
    | .ok (.int n, rest) => behind (.integer n) rest
    | .ok (.float x, rest) => behind (.number (String.ofList (Number.float x).chars)) rest
    | .error e => e
  let literal (found : Found) (r : Read (Unit × List Char)) : Failure :=
    match r with
    | .ok (_, rest) => behind found rest
    | .error e => e
  match cs with
  | 'n' :: rest => literal .null (word "ull".toList rest)
  | 't' :: rest => literal (.bool true) (word "rue".toList rest)
  | 'f' :: rest => literal (.bool false) (word "alse".toList rest)
  | '-' :: rest => numeral (number true rest)
  | '"' :: rest =>
    match string rest with
    | .ok (s, rest) => behind (.string (Text.quoted s)) rest
    | .error e => e
  | '[' :: _ => behind .sequence cs
  | '{' :: _ => behind .map cs
  | c :: _ =>
    if Decimal.isDigit c then numeral (number false cs) else ⟨.noValue, Text.byteCount cs - 1⟩
  | [] => ⟨.endInValue, 0⟩

/-- Reads a string. -/
def readText (cs : List Char) : Read (String × List Char) :=
  match skipBlanks cs with
  | '"' :: rest => string rest
  | rest => .error (mismatch "a string" rest)

/-- Reads a string or `null`. -/
def readText? (cs : List Char) : Read (Option String × List Char) :=
  match skipBlanks cs with
  | 'n' :: rest => do
    let (_, rest) ← word "ull".toList rest
    return (none, rest)
  | rest => do
    let (s, rest) ← readText rest
    return (some s, rest)

/-- Reads the members of an object of strings into a table. -/
def readEntries : Nat → Bool → Table String → List Char → Read (Table String × List Char)
  | 0, _, _, cs => failHere .endInObject cs
  | fuel + 1, first, table, cs => do
    let (more, rest) ← moreMembers first cs
    if more then
      let (key, rest) ← string rest
      let (_, rest) ← colon rest
      let (s, rest) ← readText rest
      readEntries fuel false (table.insert key s) rest
    else return (table, rest.drop 1)

/-- Reads an object of strings. -/
def readTable (depth : Nat) (cs : List Char) : Read (Table String × List Char) :=
  match skipBlanks cs with
  | '{' :: rest =>
    if depth ≤ 1 then failNext .tooDeep ('{' :: rest) else readEntries (rest.length + 1) true ∅ rest
  | rest => .error (mismatch "a map" rest)

/-- The closing bracket of a list that should have no more items. -/
def endOfList (cs : List Char) : Read (Unit × List Char) :=
  match skipBlanks cs with
  | [] => failHere .endInList []
  | ']' :: rest => .ok ((), rest)
  | ',' :: rest =>
    match skipBlanks rest with
    | ']' :: rest => failNext .trailingComma (']' :: rest)
    | rest => failNext .trailingCharacters rest
  | rest => failNext .trailingCharacters rest

/-- What is left behind the closing bracket of an object, if it comes next. -/
def pastObject (cs : List Char) : List Char :=
  match skipBlanks cs with
  | '}' :: rest => rest
  | rest => rest

end Json

namespace Node

/-- The members of a node read so far. -/
structure Draft where
  tag : Option String := none
  attributes : Option (Table String) := none
  text : Option (Option String) := none
  children : Option (List Node) := none

/-- The node of a draft with a tag; the other members may be missing. -/
def Draft.complete? (d : Draft) : Option Node :=
  d.tag.map fun tag => ⟨tag, d.attributes.getD ∅, d.text.getD none, d.children.getD []⟩

open Json in
mutual

/-- Reads one node; `fuel` bounds the number of nodes and members. -/
def readJson (fuel depth : Nat) (cs : List Char) : Read (Node × List Char) :=
  match fuel with
  | 0 => failHere .endInValue cs
  | fuel + 1 =>
    match skipBlanks cs with
    | '{' :: rest =>
      if depth ≤ 1 then failNext .tooDeep ('{' :: rest) else readMembers fuel (depth - 1) true {} rest
    | '[' :: rest =>
      if depth ≤ 1 then failNext .tooDeep ('[' :: rest) else readTuple fuel (depth - 1) rest
    | rest => .error (mismatch "struct CommandNode" rest)

/-- Reads the members of a node. -/
def readMembers (fuel depth : Nat) (first : Bool) (d : Draft) (cs : List Char) :
    Read (Node × List Char) :=
  match fuel with
  | 0 => failHere .endInObject cs
  | fuel + 1 => do
    let (more, rest) ← moreMembers first cs
    if more then
      let (key, rest) ← string rest
      let again : Read (Node × List Char) := failHere (.duplicateField key) (pastObject rest)
      match key with
      | "tag" =>
        if d.tag.isSome then again
        else
          let (_, rest) ← colon rest
          let (tag, rest) ← readText rest
          readMembers fuel depth false { d with tag := some tag } rest
      | "attributes" =>
        if d.attributes.isSome then again
        else
          let (_, rest) ← colon rest
          let (table, rest) ← readTable depth rest
          readMembers fuel depth false { d with attributes := some table } rest
      | "text" =>
        if d.text.isSome then again
        else
          let (_, rest) ← colon rest
          let (text, rest) ← readText? rest
          readMembers fuel depth false { d with text := some text } rest
      | "children" =>
        if d.children.isSome then again
        else
          let (_, rest) ← colon rest
          let (children, rest) ← readChildren fuel depth rest
          readMembers fuel depth false { d with children := some children } rest
      | _ =>
        let (_, rest) ← colon rest
        let (_, rest) ← passValue (rest.length + 1) [] rest
        readMembers fuel depth false d rest
    else match d.complete? with
      | some node => return (node, rest.drop 1)
      | none => failHere (.missingField "tag") (rest.drop 1)

/-- Reads a node written as a list of its tag, attributes, text and children. -/
def readTuple (fuel depth : Nat) (cs : List Char) : Read (Node × List Char) :=
  match fuel with
  | 0 => failHere .endInList cs
  | fuel + 1 => do
    let (more, rest) ← moreItems true cs
    if !more then failHere (.wrongLength 0 "struct CommandNode with 4 elements") (rest.drop 1)
    else
      let (tag, rest) ← readText rest
      let (more, rest) ← moreItems false rest
      if !more then return (⟨tag, ∅, none, []⟩, rest.drop 1)
      else
        let (attributes, rest) ← readTable depth rest
        let (more, rest) ← moreItems false rest
        if !more then return (⟨tag, attributes, none, []⟩, rest.drop 1)
        else
          let (text, rest) ← readText? rest
          let (more, rest) ← moreItems false rest
          if !more then return (⟨tag, attributes, text, []⟩, rest.drop 1)
          else
            let (children, rest) ← readChildren fuel depth rest
            let (_, rest) ← endOfList rest
            return (⟨tag, attributes, text, children⟩, rest)

/-- Reads a list of nodes. -/
def readChildren (fuel depth : Nat) (cs : List Char) : Read (List Node × List Char) :=
  match fuel with
  | 0 => failHere .endInValue cs
  | fuel + 1 =>
    match skipBlanks cs with
    | '[' :: rest =>
      if depth ≤ 1 then failNext .tooDeep ('[' :: rest) else readNodes fuel (depth - 1) true rest
    | rest => .error (mismatch "a sequence" rest)

/-- Reads the nodes of a list and its closing bracket. -/
def readNodes (fuel depth : Nat) (first : Bool) (cs : List Char) : Read (List Node × List Char) :=
  match fuel with
  | 0 => failHere .endInList cs
  | fuel + 1 => do
    let (more, rest) ← moreItems first cs
    if more then
      let (node, rest) ← readJson fuel depth rest
      let (nodes, rest) ← readNodes fuel depth false rest
      return (node :: nodes, rest)
    else return ([], rest.drop 1)

end

/-- The node that a JSON text denotes. -/
def ofJson (source : List Char) : Except Json.Failure Node := do
  let (node, rest) ← readJson (2 * source.length + 2) Json.depthLimit source
  Json.finish rest
  return node

end Node

end HandlerScript
