import HandlerScript.Settings.Basic
import HandlerScript.Settings.Format
import HandlerScript.Table

/-! Where settings come from: the usual ones are overlaid by those of a file, and these by variables
    of the environment. -/

namespace HandlerScript.Settings

/-! ### Variables of the environment -/

/-- The value of a variable: a truth value, a number, or else a text. -/
def valueOf (s : String) : Value :=
  match Text.toSmall s with
  | "true" => .bool true
  | "false" => .bool false
  | _ =>
    match Decimal.int64? s.toList with
    | some n => .int n.toInt
    | none =>
      match Decimal.float? s.toList with
      | some x => .float x
      | none => .string s

/-- The name of the setting that a variable gives: what follows `cue_` in small letters, with dots for
    double underscores. -/
def settingName? (variableName : String) : Option String :=
  (Text.after? "cue_".toList (Text.toSmall variableName).toList).map fun rest =>
    String.ofList (Text.replace ['_', '_'] ['.'] rest)

/-- The settings among variables. -/
def ofVariables (vars : Table String) : Tree :=
  vars.entries.filterMap fun (name, value) => (settingName? name).map fun n => (n, valueOf value)

/-! ### Files -/

/-- Why settings cannot be had. -/
inductive Error where
  /-- The file is missing or cannot be read. -/
  | file
  /-- A value is not of the kind that its setting needs. -/
  | value
  deriving DecidableEq, Repr

def Error.message : Error → String
  | .file => "Failed to load configuration"
  | .value => "Invalid configuration"

/-- The part of a file name behind its last dot, unless the dot is its first character. -/
def extension? (fileName : String) : Option String :=
  let base := (Text.piecesAt '/' fileName.toList).getLastD []
  match Text.piecesAt '.' base with
  | [] | [_] | [[], _] => none
  | pieces => some (String.ofList (pieces.getLastD []))

/-- The names that the settings file of some name may have: the name itself, or the name with an
    extension behind it, unless it names a directory. -/
def fileNames (name : String) : List String :=
  let base := Text.dropEndWhile (· == '/') name.toList
  match (Text.piecesAt '/' base).getLastD [] with
  | [] | ['.'] | ['.', '.'] => [name]
  | _ =>
    name :: Format.all.flatMap fun f => f.extensions.map fun e => String.ofList base ++ "." ++ e

/-- The text of a settings file by its name, with its format. A file of exactly that name comes
    first, and needs an extension that tells its format. -/
def findFile (file? : String → Option String) (name : String) : Option (Format × String) :=
  (fileNames name).findSome? (fun n => (file? n).map fun text => (n, text)) |>.bind
    fun (n, text) => ((extension? n).bind Format.ofExtension?).map fun f => (f, text)

/-- The text of a file without a byte order mark in front. -/
def withoutMark (text : String) : List Char :=
  match text.toList with
  | '\ufeff' :: rest => rest
  | cs => cs

/-- The entries of the settings file. A file that is asked for must exist. -/
def ofFile (file? : String → Option String) (name : Option String) : Option Tree :=
  match findFile file? (name.getD "cue") with
  | some (format, text) => format.read (withoutMark text)
  | none => if name.isSome then none else some []

/-- The settings of a file and of variables. -/
def load (file? : String → Option String) (name : Option String) (vars : Table String) :
    Except Error Settings :=
  match ofFile file? name with
  | none => .error .file
  | some tree =>
    match ofTree? (overlay (overlay (toTree {}) tree) (ofVariables vars)) with
    | none => .error .value
    | some settings => .ok settings

end HandlerScript.Settings
