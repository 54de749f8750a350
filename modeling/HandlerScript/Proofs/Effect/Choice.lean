import HandlerScript.Effect.Leaf

/-! Which effects a command can settle on.

    `c.Chooses s node e` says that the command `c` at a node can settle on the effect `e` in a scope. It
    is enough to go through the commands once: what holds of every effect that can be chosen holds of
    the effect of every command. A chosen effect writes the variable that the node names, or none, and
    a chosen fault is one that `Throw` raises, the refusal of an operation by the host, or the failure
    of a command that the host adds. -/

namespace HandlerScript

/-- The effects that a command can settle on in a scope. -/
inductive Command.Chooses (c : Command) (s : Scope) (node : Node) : Effect → Prop
  | nothing : Chooses c s node .nothing
  | assign {name : String} (value : Scalar) : s.target? node = some name →
      Chooses c s node (.assign name value)
  | assignIdentifier {name : String} : s.target? node = some name →
      Chooses c s node (.assignIdentifier name)
  | setProperty (widget property : String) (value : PropertyValue) :
      Chooses c s node (.setProperty widget property value)
  | log (level : Level) (message : String) : Chooses c s node (.log level message)
  | navigate (target : String) : Chooses c s node (.navigate target)
  | openWindow (name : String) : Chooses c s node (.openWindow name)
  | closeWindow (name : Option String) : Chooses c s node (.closeWindow name)
  | setClipboard (text : String) : Chooses c s node (.setClipboard text)
  | alert (title message : String) : Chooses c s node (.alert title message)
  | plugin : c = .unknown → Chooses c s node (.plugin node.tag)
  | thrown (message : String) : c = .throw → Chooses c s node (.raise (.raised message))
  | refused {op : Operation} {subject message : String} :
      s.host.refusal? op subject = some message → Chooses c s node (.raise (.host op message))
  | failed {message : String} : c = .unknown → s.host.addsCommand node.tag = true →
      s.host.failures.get? node.tag = some message →
      Chooses c s node (.raise (.plugin node.tag message))

namespace Effect

variable {c : Command} {s : Scope} {node : Node}

/-! ### Parts of commands -/

theorem chooses_onTarget {e : String → Effect}
    (h : ∀ name, s.target? node = some name → c.Chooses s node (e name)) :
    c.Chooses s node (onTarget s node e) := by
  unfold onTarget
  split
  · rename_i name hname
    exact h name hname
  · exact .nothing

theorem chooses_onWidget {text : String} {e : String → Effect}
    (h : ∀ widget, c.Chooses s node (e widget)) : c.Chooses s node (onWidget s text e) := by
  unfold onWidget
  split
  · exact h _
  · exact .log _ _

theorem chooses_unlessRefused (op : Operation) (subject : String) {e : Effect}
    (h : c.Chooses s node e) : c.Chooses s node (unlessRefused s op subject e) := by
  unfold unlessRefused
  split
  · rename_i message hm
    exact .refused hm
  · exact h

theorem chooses_writeProperty (target property : String) (value : PropertyValue) :
    c.Chooses s node (writeProperty s target property value) :=
  chooses_onWidget fun _ => chooses_unlessRefused _ _ (.setProperty _ _ _)

/-! ### Commands -/

theorem chooses_set : c.Chooses s node (set s node) := by
  unfold set
  dsimp only
  split
  · exact chooses_writeProperty _ _ _
  · split
    · exact .log _ _
    · rename_i hname
      exact .assign _ hname

theorem chooses_get : c.Chooses s node (get s node) := by
  unfold get
  split
  · rename_i hname
    refine chooses_onWidget fun widget => ?_
    split
    · exact .assign _ hname
    · exact .nothing
  · exact .nothing

theorem chooses_arithmetic (op : Arithmetic) : c.Chooses s node (arithmetic op s node) := by
  refine chooses_onTarget fun name hname => ?_
  dsimp only
  split
  · exact .assign _ hname
  · exact .log _ _

theorem chooses_callFunction : c.Chooses s node (callFunction s node) := by
  unfold callFunction
  split
  · exact .nothing
  · dsimp only
    split
    · exact chooses_onTarget fun _ hname => .assign _ hname
    · exact .log _ _

theorem chooses_pasteFromClipboard : c.Chooses s node (pasteFromClipboard s node) := by
  refine chooses_onTarget fun name hname => chooses_unlessRefused _ _ ?_
  split
  · exact .assign _ hname
  · exact .nothing

theorem chooses_flag (property : String) (on : Bool) :
    c.Chooses s node (flag property on s node) := by
  unfold flag
  split
  · exact chooses_writeProperty _ _ _
  · exact .nothing

theorem chooses_copyProperty : c.Chooses s node (copyProperty s node) := by
  unfold copyProperty
  split
  · refine chooses_onWidget fun widget => ?_
    split
    · exact chooses_writeProperty _ _ _
    · exact .nothing
  · exact .nothing

theorem chooses_goTo : c.Chooses s node (goTo s node) := by
  unfold goTo
  split
  · exact chooses_unlessRefused _ _ (.navigate _)
  · exact .nothing

theorem chooses_showWindow : c.Chooses s node (showWindow s node) := by
  unfold showWindow
  split
  · exact chooses_unlessRefused _ _ (.openWindow _)
  · exact .nothing

theorem chooses_pluginCommand (hc : c = .unknown) : c.Chooses s node (pluginCommand s node) := by
  unfold pluginCommand
  split
  · rename_i hadds
    split
    · rename_i hm
      exact .failed hc hadds hm
    · exact .plugin hc
  · exact .log _ _

end Effect

/-- The effect of a command is one that it can settle on. -/
theorem Command.chooses_effect (c : Command) (moment : Moment) (s : Scope) (node : Node) :
    c.Chooses s node (c.effect moment s node) := by
  open Effect in
  unfold effect
  cases c with
  | set => exact chooses_set
  | get => exact chooses_get
  | increment | decrement | multiply | divide => exact chooses_arithmetic _
  | callFunction => exact chooses_callFunction
  | setVar | calculate | toggle | append | clear | substring | replace | toUpper | toLower | length
  | now => exact chooses_onTarget fun _ hname => .assign _ hname
  | newGuid => exact chooses_onTarget fun _ hname => .assignIdentifier hname
  | «show» | hide | enable | disable => exact chooses_flag _ _
  | copyProperty => exact chooses_copyProperty
  | navigate => exact chooses_goTo
  | openWindow => exact chooses_showWindow
  | closeWindow => exact chooses_unlessRefused _ _ (.closeWindow _)
  | copyToClipboard => exact chooses_unlessRefused _ _ (.setClipboard _)
  | pasteFromClipboard => exact chooses_pasteFromClipboard
  | alert => exact chooses_unlessRefused _ _ (.alert _ _)
  | log => exact .log _ _
  | throw => exact .thrown _ rfl
  | unknown => exact chooses_pluginCommand rfl
  | delay | branch | switch | forEach | whileLoop | tryCatch | call | sequence => exact .nothing

/-! ### Faults -/

namespace Effect

/-- The effect raises no fault outside `F`. -/
def RaisesOnly (F : Fault → Prop) (e : Effect) : Prop := ∀ f, e = .raise f → F f

/-- The faults of a refusal are those of `F`. -/
def RefusalsIn (F : Fault → Prop) (s : Scope) : Prop :=
  ∀ op subject message, s.host.refusal? op subject = some message → F (.host op message)

end Effect

/-- The faults that the effect of a command raises: `Throw` raises its own, an operation of the host
    its refusal, a command that the host adds its failure. -/
theorem Command.raisesOnly_effect {F : Fault → Prop} {s : Scope} {node : Node} (moment : Moment)
    (c : Command) (hthrow : c = .throw → ∀ message, F (.raised message))
    (hs : Effect.RefusalsIn F s)
    (hplugin : c = .unknown → ∀ message, s.host.addsCommand node.tag = true →
      s.host.failures.get? node.tag = some message → F (.plugin node.tag message)) :
    (c.effect moment s node).RaisesOnly F := by
  intro f hf
  have hchosen := c.chooses_effect moment s node
  rw [hf] at hchosen
  cases hchosen with
  | thrown message hc => exact hthrow hc message
  | refused hm => exact hs _ _ _ hm
  | failed hc hadds hm => exact hplugin hc _ hadds hm

/-! ### Variables -/

/-- The variable that an effect writes. -/
def Effect.assigned? : Effect → Option String
  | .assign name _ => some name
  | .assignIdentifier name => some name
  | _ => none

/-- A command that writes a variable takes its name from the node. -/
theorem Command.target?_of_assigned? {c : Command} {moment : Moment} {s : Scope} {node : Node}
    {name : String} (h : (c.effect moment s node).assigned? = some name) :
    s.target? node = some name := by
  have hchosen := c.chooses_effect moment s node
  generalize c.effect moment s node = e at h hchosen
  cases hchosen with
  | assign value htarget =>
    cases h
    exact htarget
  | assignIdentifier htarget =>
    cases h
    exact htarget
  | _ => cases h

/-- Performing an effect changes the store by the variable that it writes and by nothing else. -/
theorem World.perform_store {w w' : World} {e : Effect} (h : w.perform e = .done w') :
    (e.assigned? = none ∧ w'.store = w.store) ∨
      ∃ name value, e.assigned? = some name ∧ w'.store = w.store.set name value := by
  cases e with
  | assign name value =>
    cases h
    exact .inr ⟨name, value, rfl, rfl⟩
  | assignIdentifier name =>
    cases h
    exact .inr ⟨name, _, rfl, rfl⟩
  | raise f => cases h
  | _ =>
    cases h
    exact .inl ⟨rfl, rfl⟩

end HandlerScript
