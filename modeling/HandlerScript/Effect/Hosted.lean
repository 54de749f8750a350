import HandlerScript.Effect.Variables

/-! Commands on the host: widgets, windows, the clipboard, messages, and commands that it adds. -/

namespace HandlerScript.Effect

/-- `Show`, `Hide`, `Enable` and `Disable`: a truth value into a fixed property. -/
def flag (property : String) (on : Bool) (s : Scope) (node : Node) : Effect :=
  match s.attr? node "target" with
  | some target => writeProperty s target property (.scalar (.bool on))
  | none => .nothing

/-- `CopyProperty`: a property of one widget into one of another, as it is; an absent property leaves
    the other alone. -/
def copyProperty (s : Scope) (node : Node) : Effect :=
  match s.attr? node "from", s.attr? node "to" with
  | some source, some target =>
    let read := propertyName s node "fromProperty"
    let written := (s.attr? node "toProperty").getD read
    onWidget s source fun widget =>
      match s.host.property? widget read with
      | some value => writeProperty s target written value
      | none => .nothing
  | _, _ => .nothing

/-- `Navigate`. -/
def goTo (s : Scope) (node : Node) : Effect :=
  match s.attrOf? node ["to", "target"] with
  | some text =>
    let target := Text.trim text
    unlessRefused s .navigate target (.navigate target)
  | none => .nothing

/-- `OpenWindow`. -/
def showWindow (s : Scope) (node : Node) : Effect :=
  match s.attrOf? node ["name", "window"] with
  | some text =>
    let name := Text.trim text
    unlessRefused s .openWindow name (.openWindow name)
  | none => .nothing

/-- `CloseWindow`: the windows of a name, or the one opened last. -/
def hideWindow (s : Scope) (node : Node) : Effect :=
  unlessRefused s .closeWindow "" (.closeWindow ((s.attrOf? node ["name", "window"]).map Text.trim))

/-- `CopyToClipboard`. -/
def copyToClipboard (s : Scope) (node : Node) : Effect :=
  unlessRefused s .setClipboard "" (.setClipboard (s.attrText node "value"))

/-- `PasteFromClipboard`: an empty clipboard leaves the variable alone. -/
def pasteFromClipboard (s : Scope) (node : Node) : Effect :=
  onTarget s node fun name =>
    unlessRefused s .clipboard "" (match s.host.clipboard with
      | some text => .assign name (.str text)
      | none => .nothing)

/-- `Alert`. -/
def showAlert (s : Scope) (node : Node) : Effect :=
  unlessRefused s .showAlert "" (.alert (s.attrText node "title") (s.messageText node))

/-- `Log`. -/
def writeLog (s : Scope) (node : Node) : Effect :=
  .log (((s.attr? node "level").map Level.ofText).getD .info) (s.messageText node)

/-- `Throw`: a fault with a message. -/
def throwFault (s : Scope) (node : Node) : Effect :=
  let message := s.messageText node
  .raise (.raised (if message.isEmpty then "Error" else message))

/-- A tag without a command of its own: one that the host adds, or none. -/
def pluginCommand (s : Scope) (node : Node) : Effect :=
  if s.host.addsCommand node.tag then
    match s.host.failures.get? node.tag with
    | some message => .raise (.plugin node.tag message)
    | none => .plugin node.tag
  else warn ("Unknown command `" ++ node.tag ++ "` skipped")

end HandlerScript.Effect
