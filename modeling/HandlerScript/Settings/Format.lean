import HandlerScript.Json.Value
import HandlerScript.Settings.Format.Ini
import HandlerScript.Settings.Format.Json5
import HandlerScript.Settings.Format.Ron
import HandlerScript.Settings.Format.Yaml.Node
import HandlerScript.Toml.Document

/-! The formats of settings files. -/

namespace HandlerScript.Settings

mutual

/-- A TOML value as a setting. -/
def Value.ofToml : Toml.Value → Value
  | .bool b => .bool b
  | .int n => .int n
  | .float x => .float x
  | .string s => .string s
  | .array items => .array (itemsOfToml items)
  | .table entries => .table (entriesOfToml entries)

def itemsOfToml : List Toml.Value → List Value
  | [] => []
  | v :: vs => .ofToml v :: itemsOfToml vs

def entriesOfToml : List (String × Toml.Value) → Tree
  | [] => []
  | (name, v) :: es => (name, .ofToml v) :: entriesOfToml es

end

mutual

/-- A JSON value as a setting. Integers beyond 64 bits are numbers, and of members with one name the
    last counts. -/
def Value.ofJson : Json.Value → Value
  | .null => .null
  | .bool b => .bool b
  | .number (.int n) => if (Word.ofInt? n).isSome then .int n else .float (Binary64.ofInt n)
  | .number (.float x) => .float x
  | .string s => .string s
  | .array items => .array (itemsOfJson items)
  | .object members => .table (entriesOfJson [] members)

def itemsOfJson : List Json.Value → List Value
  | [] => []
  | v :: vs => .ofJson v :: itemsOfJson vs

def entriesOfJson (tree : Tree) : List (String × Json.Value) → Tree
  | [] => tree
  | (name, v) :: ms => entriesOfJson (put name (.ofJson v) tree) ms

end

inductive Format where
  | toml
  | json
  | yaml
  | ini
  | ron
  | json5
  deriving DecidableEq, Repr

namespace Format

def all : List Format := [.toml, .json, .yaml, .ini, .ron, .json5]

/-- The file name extensions of a format. -/
def extensions : Format → List String
  | .toml => ["toml"]
  | .json => ["json"]
  | .yaml => ["yaml", "yml"]
  | .ini => ["ini"]
  | .ron => ["ron"]
  | .json5 => ["json5"]

def ofExtension? (extension : String) : Option Format :=
  all.find? fun f => f.extensions.contains extension

/-- The settings in a file of a format; nothing if it cannot be read, or is not a table. -/
def read (f : Format) (source : List Char) : Option Tree :=
  match f with
  | .toml => (Toml.read source).map entriesOfToml
  | .json =>
    match Json.Value.parse source with
    | .ok (.object members) => some (entriesOfJson [] members)
    | _ => none
  | .yaml => Yaml.read source
  | .ini => Ini.read source
  | .ron => Ron.read source
  | .json5 => Json5.read source

end Format

end HandlerScript.Settings
