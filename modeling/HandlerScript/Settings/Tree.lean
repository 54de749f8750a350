import HandlerScript.Number.Decimal
import HandlerScript.Text.Casing
import HandlerScript.Text.Pieces

/-! Trees of settings, and how one layer of settings goes on top of another.

    A layer goes into a tree entry by entry: tables are merged, and everything else is replaced. Names
    are kept in small letters. An entry whose name spells a path, with dots in front of names and
    brackets around the indices of items, goes to the place that it spells. -/

namespace HandlerScript.Settings

inductive Value where
  | null
  | bool (b : Bool)
  | int (n : Int)
  | float (x : Float)
  | string (s : String)
  | array (items : List Value)
  | table (entries : List (String × Value))

abbrev Tree := List (String × Value)

/-- Puts a value under a name, in place of what stood there or else at the end. -/
def put (name : String) (value : Value) : Tree → Tree
  | [] => [(name, value)]
  | e :: es => if e.1 = name then (name, value) :: es else e :: put name value es

/-- The entries of a table; any other value has none. -/
def Value.entries : Value → Tree
  | .table entries => entries
  | _ => []

/-- The items of an array; any other value has none. -/
def Value.items : Value → List Value
  | .array items => items
  | _ => []

/-- The value under a name. -/
def Tree.at (tree : Tree) (name : String) : Value := (tree.lookup name).getD .null

mutual

/-- Puts a value under a name and merges it with a table there. A table without entries takes the
    place of nothing. -/
def merge (name : String) (tree : Tree) : Value → Tree
  | .table entries =>
    let name := Text.toSmall name
    match entries with
    | [] => if (tree.lookup name).isSome then tree else put name (.table []) tree
    | e :: es => put name (.table (mergeAll (Tree.at tree name).entries (e :: es))) tree
  | value => put (Text.toSmall name) value tree

/-- Merges entries into a tree, in order. -/
def mergeAll (tree : Tree) : List (String × Value) → Tree
  | [] => tree
  | (name, value) :: rest => mergeAll (merge name tree value) rest

end

/-! ### Paths -/

inductive Step where
  | name (s : String)
  | index (i : Int)
  deriving DecidableEq, Repr

/-- Characters of the names in a path. -/
def isPathChar (c : Char) : Bool := c.isAlphanum || c == ' ' || c == '_' || c == '-'

/-- A name at the front of a text. -/
def pathName? (cs : List Char) : Option (Step × List Char) :=
  match cs.span isPathChar with
  | ([], _) => none
  | (name, rest) => some (.name (String.ofList name), rest)

/-- An index behind its opening bracket, with the closing one. -/
def pathIndex? (cs : List Char) : Option (Step × List Char) :=
  let isSpace (c : Char) : Bool := c == ' ' || c == '\t'
  let cs := cs.dropWhile isSpace
  let (down, digits) := match cs with
    | '-' :: rest => (true, rest)
    | cs => (false, cs)
  let (ds, rest) := digits.span Decimal.isDigit
  match rest.dropWhile isSpace with
  | ']' :: rest => do
    let n ← Decimal.nat? ds
    let w ← Word.ofInt? (if down then -(n : Int) else n)
    return (.index w.toInt, rest)
  | _ => none

/-- The steps behind the first one. -/
def pathSteps? : Nat → List Char → Option (List Step)
  | _, [] => some []
  | 0, _ :: _ => none
  | fuel + 1, c :: cs => do
    let (step, rest) ← if c = '.' then pathName? cs else if c = '[' then pathIndex? cs else none
    return step :: (← pathSteps? fuel rest)

/-- The path that a name spells. A name that spells none stands for itself. -/
def path (name : String) : List Step :=
  let cs := name.toList
  let steps := do
    let (first, rest) ← pathName? cs
    return first :: (← pathSteps? cs.length rest)
  steps.getD [.name name]

/-- Items with a value at an index, which counts from the end if it is negative. Gaps are filled with
    nothing. -/
def putItem (index : Int) (value : Value → Value) (items : List Value) : List Value :=
  let i := if 0 ≤ index then index else items.length + index
  if 0 ≤ i then
    let i := i.toNat
    let items := items ++ List.replicate (i + 1 - items.length) .null
    items.take i ++ value (items.getD i .null) :: items.drop (i + 1)
  else items

/-- The value with another one merged in at the end of a path. Tables and arrays on the way take the
    place of other values. -/
def Value.withAt (new : Value) : List Step → Value → Value
  | [], v => v
  | [.name name], v => .table (merge name v.entries new)
  | [.index i], v => .array (putItem i (fun _ => new) v.items)
  | .name name :: path, v =>
    .table (put name (withAt new path (Tree.at v.entries name)) v.entries)
  | .index i :: path, v => .array (putItem i (withAt new path) v.items)

/-- The tree with a layer on top. -/
def overlay (tree layer : Tree) : Tree :=
  layer.foldl (fun tree (name, value) =>
    (Value.withAt value (path (Text.toSmall name)) (.table tree)).entries) tree

end HandlerScript.Settings
