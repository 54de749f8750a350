import HandlerScript.Session

/-! Reports: what is printed about a run or a document. -/

namespace HandlerScript

/-- How the invocations of a handler ended, the variables and widgets after them, and how many
    milliseconds they waited. -/
structure Report where
  outcomes : List Outcome
  state : List (String × Scalar)
  widgets : List (String × List (String × String))
  waited : Nat

/-- The outcome in words. -/
def Outcome.text : Outcome → String
  | .completed => "completed"
  | .faulted message => "faulted: " ++ message
  | .unknownHandler => "unknown handler"

def Outcome.toJson : Outcome → Json.Value
  | .completed => .object [("status", .string "completed")]
  | .faulted message => .object [("status", .string "faulted"), ("message", .string message)]
  | .unknownHandler => .object [("status", .string "unknown_handler")]

/-- A line with the name, value and kind of a variable. -/
def variableLine (name : String) (value : Scalar) : String :=
  "  " ++ name ++ " = " ++ value.text ++ " (" ++ value.kindName ++ ")\n"

namespace Report

/-- The report on a session after some invocations. -/
def ofSession (outcomes : List Outcome) (s : Session) : Report where
  outcomes := outcomes
  state := s.store.snapshot
  widgets := s.host.widgets.entries.map fun (widget, properties) =>
    (widget, properties.entries.map fun (name, value) => (name, value.text))
  waited := s.world.elapsed

def outcomeLines (outcomes : List Outcome) : String :=
  String.join (outcomes.zipIdx.map fun (o, i) =>
    "Invocation " ++ Decimal.natText (i + 1) ++ ": " ++ o.text ++ "\n")

def stateLines (state : List (String × Scalar)) : String :=
  if state.isEmpty then "  (empty)\n"
  else String.join (state.map fun (name, value) => variableLine name value)

def widgetLines (widgets : List (String × List (String × String))) : String :=
  String.join (widgets.flatMap fun (widget, properties) =>
    properties.map fun (name, text) => "  " ++ widget ++ "." ++ name ++ " = " ++ text ++ "\n")

/-- The report in words. -/
def text (r : Report) : String :=
  outcomeLines r.outcomes ++ "\nState:\n" ++ stateLines r.state ++
    (if r.widgets.isEmpty then "" else "\nWidgets:\n" ++ widgetLines r.widgets)

def toJson (r : Report) : Json.Value :=
  .object [
    ("outcomes", .array (r.outcomes.map Outcome.toJson)),
    ("state", .object (r.state.map fun (name, value) => (name, value.toJson))),
    ("widgets", .object (r.widgets.map fun (widget, properties) =>
      (widget, .object (properties.map fun (name, text) => (name, .string text)))))]

end Report

/-- The declarations of a document in words. -/
def Document.summary (d : Document) : String :=
  let version := match d.version with
    | some hash => "Version: " ++ String.ofList (hash.toList.take 12) ++ "\n"
    | none => ""
  let handlerLine (h : Handler) : String :=
    "  " ++ h.name ++ " (" ++ Decimal.natText h.body.length ++ " commands)\n"
  version ++
    "Variables (" ++ Decimal.natText d.vars.length ++ "):\n" ++
    String.join (d.vars.map fun v => variableLine v.name v.value) ++
    "Handlers (" ++ Decimal.natText d.handlers.length ++ "):\n" ++
    String.join (d.handlers.map handlerLine)

end HandlerScript
