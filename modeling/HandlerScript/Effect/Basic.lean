import HandlerScript.Fault
import HandlerScript.Identifier
import HandlerScript.Template

/-! Effects: what a single command does to the world.

    A command that runs no others first reads the world and settles on one effect; then the effect is
    performed. So such a command writes one variable, or one property, or one record of the host, or
    one line of the log, or raises a fault and changes nothing. -/

namespace HandlerScript

/-- Everything that commands change. Time passes and identifiers are drawn as the program runs. -/
structure World where
  store : Store := {}
  host : Host := {}
  /-- Milliseconds waited since the start. -/
  elapsed : Nat := 0
  /-- Where identifiers come from, and how many have been drawn. -/
  seed : Nat := 0
  drawn : Nat := 0

namespace World

instance : Inhabited World := ⟨{}⟩

/-- The world as a command with a given sender reads it. -/
def scope (w : World) (sender : Option String) : Scope := ⟨w.store, w.host, sender⟩

def log (w : World) (level : Level) (message : String) : World :=
  { w with host := w.host.log level message }

def set (w : World) (name : String) (value : Scalar) : World :=
  { w with store := w.store.set name value }

end World

/-- What running a part of a program comes to. -/
inductive Run where
  | done (w : World)
  | fault (f : Fault) (w : World)
  | tooDeep

/-- Goes on with a part of a program unless the part before it was stopped. -/
@[inline]
def Run.andThen (r : Run) (next : World → Run) : Run :=
  match r with
  | .done w => next w
  | .fault f w => .fault f w
  | .tooDeep => .tooDeep

inductive Effect where
  | nothing
  | assign (name : String) (value : Scalar)
  | assignIdentifier (name : String)
  | setProperty (widget property : String) (value : PropertyValue)
  | log (level : Level) (message : String)
  | navigate (target : String)
  | openWindow (name : String)
  | closeWindow (name : Option String)
  | setClipboard (text : String)
  | alert (title message : String)
  | plugin (tag : String)
  | raise (fault : Fault)

/-- Performs an effect. -/
def World.perform (w : World) : Effect → Run
  | .nothing => .done w
  | .assign name value => .done (w.set name value)
  | .assignIdentifier name =>
    .done { w.set name (.str (Identifier.text w.seed w.drawn)) with drawn := w.drawn + 1 }
  | .setProperty widget property value =>
    .done { w with host := w.host.setProperty widget property value }
  | .log level message => .done (w.log level message)
  | .navigate target =>
    .done { w with host := { w.host with navigations := w.host.navigations.push target } }
  | .openWindow name =>
    .done { w with host := { w.host with windows := w.host.windows ++ [name] } }
  | .closeWindow name => .done { w with host := w.host.closeWindow name }
  | .setClipboard text => .done { w with host := { w.host with clipboard := some text } }
  | .alert title message =>
    .done { w with host := { w.host with alerts := w.host.alerts.push (title, message) } }
  | .plugin tag =>
    .done { w with host := { w.host with pluginCalls := w.host.pluginCalls.push tag } }
  | .raise fault => .fault fault w

namespace Effect

/-- A warning in the log. -/
def warn (message : String) : Effect := .log .warn message

/-- An effect on the host, unless the host refuses the operation behind it. -/
def unlessRefused (s : Scope) (op : Operation) (subject : String) (e : Effect) : Effect :=
  match s.host.refusal? op subject with
  | some message => .raise (.host op message)
  | none => e

/-- The effect for the widget that a text names; an unknown widget is reported. -/
def onWidget (s : Scope) (text : String) (e : String → Effect) : Effect :=
  match s.widget? text with
  | some widget => e widget
  | none => warn ("Widget `" ++ Text.trim text ++ "` not found")

/-- The effect for the variable that a command writes; without a variable there is none. -/
def onTarget (s : Scope) (node : Node) (e : String → Effect) : Effect :=
  match s.target? node with
  | some name => e name
  | none => .nothing

end Effect

end HandlerScript
