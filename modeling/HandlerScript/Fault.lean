import HandlerScript.Host

/-! Faults: what stops a handler unless it is caught.

    A command raises one, the host refuses an operation, or a command that the host adds fails.
    Missing variables, widgets and handlers and malformed texts never are faults. -/

namespace HandlerScript

inductive Fault where
  | raised (message : String)
  | host (operation : Operation) (message : String)
  | plugin (tag message : String)
  deriving DecidableEq, Repr

namespace Fault

/-- The bare message, as a handler that catches the fault sees it. -/
def message : Fault → String
  | .raised message => message
  | .host _ message => message
  | .plugin _ message => message

/-- The message with its origin. -/
def display : Fault → String
  | .raised message => message
  | .host operation message => "host operation `" ++ operation.name ++ "` failed: " ++ message
  | .plugin tag message => "plugin command `" ++ tag ++ "` failed: " ++ message

end Fault

end HandlerScript
