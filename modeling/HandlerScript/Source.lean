import HandlerScript.Markup.Build
import HandlerScript.Markup.Place
import HandlerScript.Node.Json

/-! Sources of command trees: markup, or the JSON form, told apart by the first character. -/

namespace HandlerScript.Source

/-- Why a source is no command tree. -/
inductive Error where
  | stuck (at' : Markup.Stuck)
  | violation (v : Markup.Violation)
  | json (failure : Json.Failure)

/-- The tree of a markup source. -/
def ofMarkup (source : List Char) : Except Error Node :=
  match Markup.document source with
  | .error stuck => .error (.stuck stuck)
  | .ok root =>
    match root.build with
    | .error v => .error (.violation v)
    | .ok (_, nodes) => .ok (nodes.headD default)

/-- The tree of a JSON source. -/
def ofJson (source : List Char) : Except Error Node :=
  match Node.ofJson source with
  | .error failure => .error (.json failure)
  | .ok node => .ok node

/-- Whether a source is in the JSON form: its first character that is not blank is a brace. -/
def isJson (source : List Char) : Bool :=
  (source.dropWhile Text.isBlank).head? == some '{'

/-- The tree of a source in either form. -/
def parse (source : List Char) : Except Error Node :=
  if isJson source then ofJson source else ofMarkup source

namespace Error

/-- The fault itself, in words. -/
def message (source : List Char) : Error → String
  | .stuck at' => at'.message source
  | .violation v => v.message
  | .json failure => "Invalid JSON document: " ++ failure.message source

/-- The place of the fault in the source. Faults of JSON have a line and column only. -/
def span (source : List Char) : Error → Markup.Span
  | .stuck at' =>
    let (line, column) := Markup.placeAfter (Markup.before source at'.left)
    ⟨0, 0, line, column⟩
  | .violation v => v.extent.span source
  | .json failure =>
    let p := failure.position source
    ⟨0, 0, p.line - 1, p.column - 1⟩

/-- The fault with its place. -/
def display (source : List Char) (e : Error) : String :=
  match e with
  | .stuck at' => at'.message source
  | _ =>
    let s := e.span source
    e.message source ++ " (line " ++ Decimal.natText (s.line + 1) ++ ", column " ++
      Decimal.natText (s.column + 1) ++ ")"

end Error

end HandlerScript.Source
