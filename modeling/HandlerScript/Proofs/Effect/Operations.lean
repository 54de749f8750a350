import HandlerScript.Effect.Leaf

/-! Operations of the host, one after the other.

    An effect is settled before anything changes. Here a command is an action instead: it reads the world
    as it is by then, asks the host for one operation after the other, and keeps what it has changed when
    an operation fails. An operation of the host is a check and a change behind it. So an action could
    stop half way. None does: `outcome_act` says that every command comes to what performing its effect
    comes to. -/

namespace HandlerScript

/-- Steps that read and change the world; a fault keeps what was changed before it. -/
abbrev Action := ExceptT Fault (StateM World)

namespace Action

/-- How an action ends, in the world that it leaves. -/
def outcome (a : Action Unit) (w : World) : Run :=
  match a.run.run w with
  | (.ok (), w) => .done w
  | (.error f, w) => .fault f w

/-! ### Steps -/

/-- Looks something up in the world as it is now. -/
def look {α : Type} (sender : Option String) (f : Scope → α) : Action α := do
  return f ((← get).scope sender)

def report (level : Level) (message : String) : Action Unit := modify (·.log level message)

def assign (name : String) (value : Scalar) : Action Unit := modify (·.set name value)

def changeHost (f : Host → Host) : Action Unit := modify fun w => { w with host := f w.host }

-- a fault behind a change does not take it back
example (w : World) : (do assign "n" (.int 1); throw (.raised "late") : Action Unit).outcome w =
    .fault (.raised "late") (w.set "n" (.int 1)) := rfl

/-- Stops with the reason for a refusal. -/
def refuse (op : Operation) : Option String → Action Unit
  | some message => throw (.host op message)
  | none => return

/-- Stops if the host refuses an operation. -/
def check (op : Operation) (subject : String) : Action Unit := do
  refuse op ((← get).host.refusal? op subject)

/-! ### Operations of the host -/

/-- An operation that changes the host: a check first, the change behind it. -/
def operate (op : Operation) (subject : String) (change : Host → Host) : Action Unit := do
  check op subject
  changeHost change

def setProperty (widget property : String) (value : PropertyValue) : Action Unit :=
  operate .setProperty "" (·.setProperty widget property value)

def navigate (target : String) : Action Unit :=
  operate .navigate target fun h => { h with navigations := h.navigations.push target }

def openWindow (name : String) : Action Unit :=
  operate .openWindow name fun h => { h with windows := h.windows ++ [name] }

def closeWindow (name : Option String) : Action Unit :=
  operate .closeWindow "" (·.closeWindow name)

def showAlert (title message : String) : Action Unit :=
  operate .showAlert "" fun h => { h with alerts := h.alerts.push (title, message) }

def setClipboard (text : String) : Action Unit :=
  operate .setClipboard "" fun h => { h with clipboard := some text }

def clipboard : Action (Option String) := do
  check .clipboard ""
  return (← get).host.clipboard

/-- Whether the host adds a command of this tag; if it does, the command is called. -/
def addedCommand (tag : String) : Action Bool := do
  let host := (← get).host
  if host.addsCommand tag then
    match host.failures.get? tag with
    | some message => throw (.plugin tag message)
    | none =>
      changeHost fun h => { h with pluginCalls := h.pluginCalls.push tag }
      return true
  else
    return false

/-! ### Commands -/

section Commands

variable (sender : Option String) (node : Node)

/-- The widget that a text names; an unknown one is reported. -/
def findWidget (text : String) : Action (Option String) := do
  match ← look sender (·.widget? text) with
  | some widget => return some widget
  | none =>
    report .warn ("Widget `" ++ Text.trim text ++ "` not found")
    return none

def writeProperty (target property : String) (value : PropertyValue) : Action Unit := do
  match ← findWidget sender target with
  | some widget => setProperty widget (Text.trim property) value
  | none => return

def actSet : Action Unit := do
  let value ← look sender (·.attrText node "value")
  match ← look sender (·.attr? node "target") with
  | some target =>
    let property ← look sender (Effect.propertyName · node "property")
    writeProperty sender target property (.scalar (.str value))
  | none =>
    match ← look sender (·.target? node) with
    | some name =>
      match ← look sender (·.attr? node "type") with
      | some kind => assign name (Scalar.typed value kind)
      | none => assign name (.str value)
    | none => report .warn "Set without `target` or `var` skipped"

def actGet : Action Unit := do
  match ← look sender (·.attr? node "target"), ← look sender (·.target? node) with
  | some target, some name =>
    let property ← look sender (Effect.propertyName · node "property")
    match ← findWidget sender target with
    | some widget =>
      match ← look sender (·.host.property? widget property) with
      | some value => assign name value.toScalar
      | none => return
    | none => return
  | _, _ => return

def actFlag (property : String) (on : Bool) : Action Unit := do
  match ← look sender (·.attr? node "target") with
  | some target => writeProperty sender target property (.scalar (.bool on))
  | none => return

def actCopyProperty : Action Unit := do
  match ← look sender (·.attr? node "from"), ← look sender (·.attr? node "to") with
  | some source, some target =>
    let property ← look sender (Effect.propertyName · node "fromProperty")
    let written ← look sender fun s => (s.attr? node "toProperty").getD property
    match ← findWidget sender source with
    | some widget =>
      match ← look sender (·.host.property? widget property) with
      | some value => writeProperty sender target written value
      | none => return
    | none => return
  | _, _ => return

def actNavigate : Action Unit := do
  match ← look sender (·.attrOf? node ["to", "target"]) with
  | some text => navigate (Text.trim text)
  | none => return

def actOpenWindow : Action Unit := do
  match ← look sender (·.attrOf? node ["name", "window"]) with
  | some text => openWindow (Text.trim text)
  | none => return

def actCloseWindow : Action Unit := do
  let name ← look sender (·.attrOf? node ["name", "window"])
  closeWindow (name.map Text.trim)

def actCopyToClipboard : Action Unit := do
  let value ← look sender (·.attrText node "value")
  setClipboard value

def actPasteFromClipboard : Action Unit := do
  match ← look sender (·.target? node) with
  | some name =>
    match ← clipboard with
    | some text => assign name (.str text)
    | none => return
  | none => return

def actAlert : Action Unit := do
  let message ← look sender (·.messageText node)
  let title ← look sender (·.attrText node "title")
  showAlert title message

def actThrow : Action Unit := do
  let message ← look sender (·.messageText node)
  throw (.raised (if message.isEmpty then "Error" else message))

def actUnknown : Action Unit := do
  if ← addedCommand node.tag then
    return
  else
    report .warn ("Unknown command `" ++ node.tag ++ "` skipped")

/-- Writes what an effect on variables and the log writes, without asking the host for anything. -/
def write : Effect → Action Unit
  | .assign name value => assign name value
  | .assignIdentifier name => modify fun w =>
    { w.set name (.str (Identifier.text w.seed w.drawn)) with drawn := w.drawn + 1 }
  | .log level message => report level message
  | _ => return

end Commands

end Action

/-- A command as an action at a moment. -/
def Command.act (moment : Moment) (sender : Option String) (node : Node) : Command → Action Unit
  | .set => Action.actSet sender node
  | .get => Action.actGet sender node
  | .show => Action.actFlag sender node "Visible" true
  | .hide => Action.actFlag sender node "Visible" false
  | .enable => Action.actFlag sender node "IsEnabled" true
  | .disable => Action.actFlag sender node "IsEnabled" false
  | .copyProperty => Action.actCopyProperty sender node
  | .navigate => Action.actNavigate sender node
  | .openWindow => Action.actOpenWindow sender node
  | .closeWindow => Action.actCloseWindow sender node
  | .copyToClipboard => Action.actCopyToClipboard sender node
  | .pasteFromClipboard => Action.actPasteFromClipboard sender node
  | .alert => Action.actAlert sender node
  | .throw => Action.actThrow sender node
  | .unknown => Action.actUnknown node
  | c => do
    let e ← Action.look sender (c.effect moment · node)
    Action.write e

theorem World.host_scope (w : World) (sender : Option String) : (w.scope sender).host = w.host := rfl

namespace Action

section Outcomes

variable {α : Type} {sender : Option String} {node : Node} {w : World}

/-! ### What steps come to -/

/-- Looking something up changes nothing. -/
theorem outcome_look (f : Scope → α) (next : α → Action Unit) :
    (look sender f >>= next).outcome w = (next (f (w.scope sender))).outcome w := rfl

theorem outcome_get (next : World → Action Unit) :
    (get >>= next).outcome w = (next w).outcome w := rfl

/-- A check and what comes behind it. The check comes first, so a refusal leaves the world as it was. -/
theorem outcome_check {op : Operation} {subject : String} {next : Unit → Action Unit} {e : Effect}
    (hnext : (next ()).outcome w = w.perform e) : (check op subject >>= next).outcome w =
      w.perform (.unlessRefused (w.scope sender) op subject e) := by
  have hcheck : (check op subject >>= next).outcome w =
      (refuse op (w.host.refusal? op subject) >>= next).outcome w := rfl
  rw [hcheck, Effect.unlessRefused, World.host_scope]
  cases w.host.refusal? op subject with
  | some message => rfl
  | none => exact hnext

/-- Looking for a widget, and what is done with it. -/
theorem outcome_findWidget {text : String} {next : Option String → Action Unit} {e : String → Effect}
    (hsome : ∀ widget, (next (some widget)).outcome w = w.perform (e widget))
    (hnone : ∀ w, (next none).outcome w = .done w) : (findWidget sender text >>= next).outcome w =
      w.perform (.onWidget (w.scope sender) text e) := by
  rw [findWidget, bind_assoc, outcome_look, Effect.onWidget]
  cases (w.scope sender).widget? text with
  | some widget => exact hsome widget
  | none => exact hnone _

theorem outcome_writeProperty (target property : String) (value : PropertyValue) :
    (writeProperty sender target property value).outcome w =
      w.perform (Effect.writeProperty (w.scope sender) target property value) :=
  outcome_findWidget (fun _ => outcome_check rfl) fun _ => rfl

/-! ### What commands come to -/

theorem outcome_actSet :
    (actSet sender node).outcome w = w.perform (.set (w.scope sender) node) := by
  rw [actSet, Effect.set, outcome_look, outcome_look]
  cases (w.scope sender).attr? node "target" with
  | some target => exact (outcome_look _ _).trans (outcome_writeProperty _ _ _)
  | none =>
    dsimp only
    rw [outcome_look]
    cases (w.scope sender).target? node with
    | none => rfl
    | some name =>
      dsimp only
      rw [outcome_look]
      cases (w.scope sender).attr? node "type" <;> rfl

theorem outcome_actGet :
    (actGet sender node).outcome w = w.perform (.get (w.scope sender) node) := by
  rw [actGet, Effect.get, outcome_look, outcome_look]
  cases (w.scope sender).attr? node "target" with
  | none => rfl
  | some target =>
    cases (w.scope sender).target? node with
    | none => rfl
    | some name =>
      refine (outcome_look _ _).trans (outcome_findWidget (fun widget => ?_) fun _ => rfl)
      dsimp only
      rw [outcome_look]
      cases (w.scope sender).host.property? widget
        (Effect.propertyName (w.scope sender) node "property") <;> rfl

theorem outcome_actFlag (property : String) (on : Bool) :
    (actFlag sender node property on).outcome w =
      w.perform (.flag property on (w.scope sender) node) := by
  rw [actFlag, Effect.flag, outcome_look]
  cases (w.scope sender).attr? node "target" with
  | some target => exact outcome_writeProperty _ _ _
  | none => rfl

theorem outcome_actCopyProperty :
    (actCopyProperty sender node).outcome w = w.perform (.copyProperty (w.scope sender) node) := by
  rw [actCopyProperty, Effect.copyProperty, outcome_look, outcome_look]
  cases (w.scope sender).attr? node "from" with
  | none => rfl
  | some source =>
    cases (w.scope sender).attr? node "to" with
    | none => rfl
    | some target =>
      refine (outcome_look _ _).trans ((outcome_look _ _).trans
        (outcome_findWidget (fun widget => ?_) fun _ => rfl))
      dsimp only
      rw [outcome_look]
      cases (w.scope sender).host.property? widget
        (Effect.propertyName (w.scope sender) node "fromProperty") with
      | some value => exact outcome_writeProperty _ _ _
      | none => rfl

theorem outcome_actNavigate :
    (actNavigate sender node).outcome w = w.perform (.goTo (w.scope sender) node) := by
  rw [actNavigate, Effect.goTo, outcome_look]
  cases (w.scope sender).attrOf? node ["to", "target"] with
  | some text => exact outcome_check rfl
  | none => rfl

theorem outcome_actOpenWindow :
    (actOpenWindow sender node).outcome w = w.perform (.showWindow (w.scope sender) node) := by
  rw [actOpenWindow, Effect.showWindow, outcome_look]
  cases (w.scope sender).attrOf? node ["name", "window"] with
  | some text => exact outcome_check rfl
  | none => rfl

theorem outcome_actCloseWindow :
    (actCloseWindow sender node).outcome w = w.perform (.hideWindow (w.scope sender) node) :=
  (outcome_look _ _).trans (outcome_check rfl)

theorem outcome_actCopyToClipboard :
    (actCopyToClipboard sender node).outcome w =
      w.perform (.copyToClipboard (w.scope sender) node) :=
  (outcome_look _ _).trans (outcome_check rfl)

theorem outcome_actPasteFromClipboard :
    (actPasteFromClipboard sender node).outcome w =
      w.perform (.pasteFromClipboard (w.scope sender) node) := by
  rw [actPasteFromClipboard, Effect.pasteFromClipboard, Effect.onTarget, outcome_look]
  cases (w.scope sender).target? node with
  | none => rfl
  | some name =>
    dsimp only
    rw [clipboard, bind_assoc]
    refine outcome_check ?_
    rw [bind_assoc, outcome_get, World.host_scope]
    cases w.host.clipboard <;> rfl

theorem outcome_actAlert :
    (actAlert sender node).outcome w = w.perform (.showAlert (w.scope sender) node) :=
  (outcome_look _ _).trans ((outcome_look _ _).trans (outcome_check rfl))

theorem outcome_actUnknown :
    (actUnknown node).outcome w = w.perform (.pluginCommand (w.scope sender) node) := by
  rw [actUnknown, addedCommand, bind_assoc, outcome_get, Effect.pluginCommand, World.host_scope]
  dsimp only
  split
  · cases w.host.failures.get? node.tag <;> rfl
  · rfl

end Outcomes

end Action

/-! ### Commands that ask the host for nothing -/

namespace Effect

/-- An effect on the variables or the log alone. -/
def IsQuiet : Effect → Prop
  | .nothing | .assign _ _ | .assignIdentifier _ | .log _ _ => True
  | _ => False

theorem IsQuiet.outcome_write {e : Effect} (h : e.IsQuiet) (w : World) :
    (Action.write e).outcome w = w.perform e := by
  cases e with
  | nothing | assign name value | assignIdentifier name | log level message => rfl
  | _ => exact h.elim

theorem quiet_onTarget {s : Scope} {node : Node} {e : String → Effect}
    (h : ∀ name, (e name).IsQuiet) : (onTarget s node e).IsQuiet := by
  unfold onTarget
  split
  · exact h _
  · trivial

theorem quiet_arithmetic (op : Arithmetic) (s : Scope) (node : Node) :
    (arithmetic op s node).IsQuiet := by
  refine quiet_onTarget fun name => ?_
  dsimp only
  split <;> trivial

theorem quiet_callFunction (s : Scope) (node : Node) : (callFunction s node).IsQuiet := by
  unfold callFunction
  split
  · trivial
  · dsimp only
    split
    · exact quiet_onTarget fun _ => trivial
    · trivial

end Effect

/-- Step by step, a command comes to what performing its effect comes to. -/
theorem Command.outcome_act (c : Command) (moment : Moment) (sender : Option String) (node : Node)
    (w : World) : (c.act moment sender node).outcome w =
      w.perform (c.effect moment (w.scope sender) node) := by
  open HandlerScript.Action Effect in
  cases c with
  | set => exact outcome_actSet
  | get => exact outcome_actGet
  | «show» | hide | enable | disable => exact outcome_actFlag _ _
  | copyProperty => exact outcome_actCopyProperty
  | navigate => exact outcome_actNavigate
  | openWindow => exact outcome_actOpenWindow
  | closeWindow => exact outcome_actCloseWindow
  | copyToClipboard => exact outcome_actCopyToClipboard
  | pasteFromClipboard => exact outcome_actPasteFromClipboard
  | alert => exact outcome_actAlert
  | throw => rfl
  | unknown => exact outcome_actUnknown
  | increment | decrement | multiply | divide =>
    refine (outcome_look _ _).trans (IsQuiet.outcome_write ?_ w)
    rw [effect]
    exact quiet_arithmetic _ _ _
  | callFunction =>
    refine (outcome_look _ _).trans (IsQuiet.outcome_write ?_ w)
    rw [effect]
    exact quiet_callFunction _ _
  | setVar | calculate | toggle | append | clear | substring | replace | toUpper | toLower | length
  | newGuid | now =>
    refine (outcome_look _ _).trans (IsQuiet.outcome_write ?_ w)
    rw [effect]
    exact quiet_onTarget fun _ => trivial
  | log | delay | branch | switch | forEach | whileLoop | tryCatch | call | sequence => rfl

end HandlerScript
