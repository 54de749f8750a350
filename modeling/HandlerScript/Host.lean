import HandlerScript.Scalar.Basic
import HandlerScript.Table

/-! The host: widgets with properties, and everything else that commands act upon.

    The host keeps its whole state in memory and records what was asked of it. Any operation can be
    made to fail through a table of failures, and a host may offer its widgets only, so that all other
    operations are refused and nothing is recorded. -/

namespace HandlerScript

/-- A widget property: a scalar, or a handle that only the host understands. -/
inductive PropertyValue where
  | scalar (s : Scalar)
  | handle (label : String) (id : Int)

namespace PropertyValue

def text : PropertyValue → String
  | .scalar s => s.text
  | .handle label _ => label

/-- The value as the content of a variable. -/
def toScalar : PropertyValue → Scalar
  | .scalar s => s
  | .handle label _ => .str label

/-- Scalars compare by value, handles by identity. -/
def same : PropertyValue → PropertyValue → Bool
  | .scalar a, .scalar b => a.same b
  | .handle _ a, .handle _ b => a == b
  | _, _ => false

end PropertyValue

inductive Level where
  | debug
  | info
  | warn
  | error
  deriving DecidableEq, Repr

namespace Level

/-- The level that a text names; anything else is plain information. -/
def ofText (text : String) : Level :=
  match Text.lower (Text.trim text) with
  | "debug" | "trace" | "verbose" => .debug
  | "warn" | "warning" => .warn
  | "error" | "fatal" => .error
  | _ => .info

def text : Level → String
  | .debug => "debug"
  | .info => "info"
  | .warn => "warn"
  | .error => "error"

end Level

/-- Something that happened at the host and asks for a handler. -/
structure Event where
  handler : String
  sender : Option String
  deriving DecidableEq, Repr

/-- The operations of the host that can fail. -/
inductive Operation where
  | setProperty
  | navigate
  | openWindow
  | closeWindow
  | showAlert
  | setClipboard
  | clipboard
  deriving DecidableEq, Repr

namespace Operation

def name : Operation → String
  | .setProperty => "set_property"
  | .navigate => "navigate"
  | .openWindow => "open_window"
  | .closeWindow => "close_window"
  | .showAlert => "show_alert"
  | .setClipboard => "set_clipboard"
  | .clipboard => "clipboard"

/-- Why a host of widgets only refuses an operation on `subject`. -/
def unsupported (subject : String) : Operation → Option String
  | .setProperty => none
  | .navigate => some ("navigation to `" ++ subject ++ "` is not supported by this host")
  | .openWindow => some ("opening window `" ++ subject ++ "` is not supported by this host")
  | .closeWindow => some "closing windows is not supported by this host"
  | .showAlert => some "alerts are not supported by this host"
  | .setClipboard => some "clipboard is not supported by this host"
  | .clipboard => some "clipboard is not supported by this host"

end Operation

/-- How much a host offers: all operations, or widgets only, whose properties may refuse to be
    written for a given reason. -/
inductive Reach where
  | full
  | widgetsOnly (refusal : Option String)
  deriving DecidableEq, Repr

structure Host where
  widgets : Table (Table PropertyValue) := ∅
  permissive : Bool := false
  clipboard : Option String := none
  pending : List Event := []
  failures : Table String := ∅
  functions : Table (String → String) := ∅
  commands : List String := []
  alerts : Array (String × String) := #[]
  navigations : Array String := #[]
  windows : List String := []
  pluginCalls : Array String := #[]
  logs : Array (Level × String) := #[]
  reach : Reach := .full

namespace Host

instance : Inhabited Host := ⟨{}⟩

/-- The alias for the widget that raised the event being handled. -/
def senderAlias : String := "$sender"

/-- Whether a widget of this name can be addressed. A permissive host knows every name. -/
def knows (h : Host) (widget : String) : Bool :=
  h.permissive || h.widgets.contains widget

/-- The widget that a text names, with the sender behind its alias. -/
def find? (h : Host) (sender : Option String) (text : String) : Option String :=
  let name := Text.trim text
  if Text.sameLetters name senderAlias then sender
  else if h.knows name then some name
  else none

def property? (h : Host) (widget property : String) : Option PropertyValue :=
  (h.widgets.get? widget).bind (·.get? property)

/-- Writes a property, and creates its widget if need be. -/
def setProperty (h : Host) (widget property : String) (value : PropertyValue) : Host :=
  { h with
    widgets := h.widgets.insert widget (((h.widgets.get? widget).getD ∅).insert property value) }

/-- Records a line in the log. -/
def log (h : Host) (level : Level) (message : String) : Host :=
  match h.reach with
  | .full => { h with logs := h.logs.push (level, message) }
  | .widgetsOnly _ => h

/-- Why the host refuses an operation on `subject`, if it does. -/
def refusal? (h : Host) (op : Operation) (subject : String) : Option String :=
  match h.reach with
  | .full => h.failures.get? op.name
  | .widgetsOnly refusal =>
    match op.unsupported subject with
    | some reason => some reason
    | none => refusal.orElse fun _ => h.failures.get? op.name

/-- The result of a function that the host adds. -/
def callFunction? (h : Host) (key args : String) : Option String :=
  match h.reach with
  | .full => (h.functions.get? key).map (· args)
  | .widgetsOnly _ => none

/-- Whether the host adds a command of this tag, spelled exactly so. -/
def addsCommand (h : Host) (tag : String) : Bool :=
  match h.reach with
  | .full => h.commands.contains tag
  | .widgetsOnly _ => false

/-- Closes the windows of a name, or the one opened last. -/
def closeWindow (h : Host) : Option String → Host
  | some name => { h with windows := h.windows.filter (· != name) }
  | none => { h with windows := h.windows.dropLast }

/-- Puts an event at the end of the queue. -/
def queue (h : Host) (e : Event) : Host := { h with pending := h.pending ++ [e] }

/-- Takes all pending events. -/
def pump (h : Host) : List Event × Host :=
  match h.reach with
  | .full => (h.pending, { h with pending := [] })
  | .widgetsOnly _ => ([], h)

end Host

end HandlerScript
