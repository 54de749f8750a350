import HandlerScript.Number.Decimal

/-! TOML values, and how a document puts them together.

    A document is a tree of named items that grows line by line. A table may be opened by a header
    once, also after tables inside it; tables that arose from dotted names grow by dotted names only;
    and a value that is written out whole never grows. -/

namespace HandlerScript.Toml

/-- Dates and times are kept as their texts. -/
inductive Value where
  | bool (b : Bool)
  | int (n : Int)
  | float (x : Float)
  | string (s : String)
  | array (items : List Value)
  | table (entries : List (String × Value))

/-- What made a table appear. -/
inductive Origin where
  /-- A header for a table inside it. -/
  | implied
  /-- A dotted name. -/
  | dotted
  /-- A header of its own. -/
  | header
  deriving DecidableEq, Repr

/-- A part of a document: a finished value, a table, or a row of tables. -/
inductive Item where
  | value (v : Value)
  | table (origin : Origin) (entries : List (String × Item))
  | rows (tables : List (List (String × Item)))

abbrev Entries := List (String × Item)

mutual

/-- The value of an item. -/
def Item.toValue : Item → Value
  | .value v => v
  | .table _ entries => .table (toValues entries)
  | .rows tables => .array (tablesToValues tables)

def toValues : List (String × Item) → List (String × Value)
  | [] => []
  | (name, item) :: rest => (name, item.toValue) :: toValues rest

def tablesToValues : List (List (String × Item)) → List Value
  | [] => []
  | entries :: rest => .table (toValues entries) :: tablesToValues rest

end

/-- Puts an item under a name, in place of what stood there or else at the end. -/
def put (name : String) (item : Item) : Entries → Entries
  | [] => [(name, item)]
  | e :: es => if e.1 = name then (name, item) :: es else e :: put name item es

/-- Changes the last table of a row. -/
def onLast (f : Entries → Option Entries) (tables : List Entries) : Option (List Entries) :=
  match tables.getLast? with
  | some last => (f last).map fun last => tables.dropLast ++ [last]
  | none => none

/-- Assigns a value under a dotted name. `grows` tells whether names may be added to the table at
    hand. -/
def assign (value : Value) : Bool → List String → Entries → Option Entries
  | _, [], _ => none
  | grows, [name], es =>
    if grows && (es.lookup name).isNone then some (put name (.value value) es) else none
  | _, name :: path, es =>
    match es.lookup name with
    | none => (assign value true path []).map fun inner => put name (.table .dotted inner) es
    | some (.table .header _) => none
    | some (.table origin inner) =>
      (assign value (origin = .dotted) path inner).map fun inner => put name (.table origin inner) es
    | some (.rows tables) =>
      (onLast (assign value false path) tables).map fun tables => put name (.rows tables) es
    | some (.value _) => none

/-- Changes the table at the end of a path of names; tables on the way appear as they are needed. -/
def inside (f : Entries → Option Entries) : List String → Entries → Option Entries
  | [], es => f es
  | name :: path, es =>
    match es.lookup name with
    | none => (inside f path []).map fun inner => put name (.table .implied inner) es
    | some (.table origin inner) =>
      (inside f path inner).map fun inner => put name (.table origin inner) es
    | some (.rows tables) => (onLast (inside f path) tables).map fun tables => put name (.rows tables) es
    | some (.value _) => none

/-- Opens a table by a header; a second header for it is refused. -/
def openTable (name : String) (es : Entries) : Option Entries :=
  match es.lookup name with
  | none => some (put name (.table .header []) es)
  | some (.table .implied inner) => some (put name (.table .header inner) es)
  | some _ => none

/-- Opens the next table of a row. -/
def openRow (name : String) (es : Entries) : Option Entries :=
  match es.lookup name with
  | none => some (put name (.rows [[]]) es)
  | some (.rows tables) => some (put name (.rows (tables ++ [[]])) es)
  | some _ => none

/-- A line of a document. -/
inductive Line where
  | assignment (path : List String) (value : Value)
  | tableHeader (path : List String)
  | rowHeader (path : List String)

/-- A document so far, and the table that assignments go to. -/
structure Draft where
  root : Entries := []
  here : List String := []

/-- The document with a line more. -/
def Draft.add (d : Draft) : Line → Option Draft
  | .assignment path value =>
    (inside (assign value true path) d.here d.root).map fun root => { d with root := root }
  | .tableHeader path =>
    (inside (openTable (path.getLastD "")) path.dropLast d.root).map fun root => ⟨root, path⟩
  | .rowHeader path =>
    (inside (openRow (path.getLastD "")) path.dropLast d.root).map fun root => ⟨root, path⟩

/-- The entries of the document that lines make. -/
def build (lines : List Line) : Option Entries :=
  (lines.foldlM Draft.add {}).map (·.root)

end HandlerScript.Toml
