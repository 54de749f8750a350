import HandlerScript.Builtin
import HandlerScript.Effect.Basic
import HandlerScript.Moment.Format

/-! Commands that compute a text into a variable. -/

namespace HandlerScript.Effect

/-- `Substring`: characters from a start on, up to a length if one is given. -/
def substring (s : Scope) (node : Node) : Effect :=
  onTarget s node fun name =>
    let count (text : String) : Nat := Binary64.toCount (Scalar.numberOf text)
    let start := ((s.attr? node "start").map count).getD 0
    let rest := (s.attrText node "value").toList.drop start
    .assign name (.str (String.ofList (match (s.attr? node "length").map count with
      | some n => rest.take n
      | none => rest)))

/-- `Replace`: every occurrence of a phrase by another. -/
def replace (s : Scope) (node : Node) : Effect :=
  onTarget s node fun name =>
    let phrase := (s.attrText node "find").toList
    let new := ((s.attrOf? node ["with", "replacement"]).getD "").toList
    .assign name (.str (String.ofList (Text.replace phrase new (s.attrText node "value").toList)))

/-- `ToUpper`: a text in capitals. -/
def toUpper (s : Scope) (node : Node) : Effect :=
  onTarget s node fun name => .assign name (.str (Text.toCapitals (s.attrText node "value")))

/-- `ToLower`: a text in small letters. -/
def toLower (s : Scope) (node : Node) : Effect :=
  onTarget s node fun name => .assign name (.str (Text.toSmall (s.attrText node "value")))

/-- `Length`: the number of characters of a text. -/
def length (s : Scope) (node : Node) : Effect :=
  onTarget s node fun name => .assign name (.int (Int64.ofNat (s.attrText node "value").length))

/-- `NewGuid`: a fresh identifier. -/
def newGuid (s : Scope) (node : Node) : Effect :=
  onTarget s node .assignIdentifier

/-- `Now`: the moment in a format. -/
def now (moment : Moment) (s : Scope) (node : Node) : Effect :=
  onTarget s node fun name =>
    let items := ((s.attr? node "format").bind Moment.format?).getD Moment.usualFormat
    .assign name (.str (moment.write items))

/-- `CallFunction`: the result of a built-in function, else of one that the host adds. -/
def callFunction (s : Scope) (node : Node) : Effect :=
  match s.attrOf? node ["function", "key"] with
  | none => .nothing
  | some key =>
    let args := s.attrText node "args"
    let result := (Builtin.call? key args).orElse fun _ => s.host.callFunction? (Text.trim key) args
    match result with
    | some value => onTarget s node fun name => .assign name (Scalar.infer value)
    | none => warn ("Function `" ++ Text.trim key ++ "` is not available")

end HandlerScript.Effect
