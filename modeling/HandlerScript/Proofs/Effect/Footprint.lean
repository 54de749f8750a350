import HandlerScript.Proofs.Effect.Choice
import HandlerScript.Proofs.Run.Host
import HandlerScript.Proofs.Run.Leaf

/-! What one command can change.

    A world is made of places: its variables, the properties of its widgets, the clipboard, the windows,
    and the records of the host with its log. `w.SameBut place w'` says that the two worlds differ at one
    place at most, and there by one entry at most if it is a record. `Command.place?` tells, from the
    attributes of a node alone, at which place a command aims. A leaf changes that place, or it writes
    one line to the log, or it changes nothing, however it ends. -/

namespace HandlerScript

/-- A place of the world that a command can change. -/
inductive World.Place where
  | var (name : String)
  | property (widget name : String)
  | clipboard
  | windows
  | alerts
  | navigations
  | pluginCalls
  | log
  deriving DecidableEq

/-- The second record is the first, with one entry more if it is the one that may change. -/
def Logged {α : Type} (may : Prop) (xs ys : Array α) : Prop := ys = xs ∨ may ∧ ∃ x, ys = xs.push x

/-- The second world is the first but for one place. A widget may come to be where the place is a
    property of it. How many identifiers have been drawn is left open. -/
structure World.SameBut (place : Option World.Place) (w w' : World) : Prop where
  vars : ∀ name, place ≠ some (.var name) → w'.store.get? name = w.store.get? name
  widgets : ∀ widget, (∀ name, place ≠ some (.property widget name)) →
    w'.host.widgets.get? widget = w.host.widgets.get? widget
  properties : ∀ widget name, place ≠ some (.property widget name) →
    w'.host.property? widget name = w.host.property? widget name
  clipboard : place ≠ some .clipboard → w'.host.clipboard = w.host.clipboard
  windows : place ≠ some .windows → w'.host.windows = w.host.windows
  alerts : Logged (place = some .alerts) w.host.alerts w'.host.alerts
  navigations : Logged (place = some .navigations) w.host.navigations w'.host.navigations
  pluginCalls : Logged (place = some .pluginCalls) w.host.pluginCalls w'.host.pluginCalls
  logs : Logged (place = some .log) w.host.logs w'.host.logs
  pending : w'.host.pending = w.host.pending
  make : w.host.SameMake w'.host
  elapsed : w'.elapsed = w.elapsed
  seed : w'.seed = w.seed

/-! ### The places of effects -/

/-- The place at which an effect changes the world. -/
def Effect.place? : Effect → Option World.Place
  | .nothing | .raise _ => none
  | .assign name _ | .assignIdentifier name => some (.var name)
  | .setProperty widget name _ => some (.property widget name)
  | .log _ _ => some .log
  | .navigate _ => some .navigations
  | .openWindow _ | .closeWindow _ => some .windows
  | .setClipboard _ => some .clipboard
  | .alert _ _ => some .alerts
  | .plugin _ => some .pluginCalls

section Worlds

variable {w w' : World}

theorem World.SameBut.refl (place : Option World.Place) (w : World) : w.SameBut place w where
  vars _ _ := rfl
  widgets _ _ := rfl
  properties _ _ _ := rfl
  clipboard _ := rfl
  windows _ := rfl
  alerts := .inl rfl
  navigations := .inl rfl
  pluginCalls := .inl rfl
  logs := .inl rfl
  pending := rfl
  make := .refl w.host
  elapsed := rfl
  seed := rfl

theorem sameBut_set (w : World) (name : String) (value : Scalar) :
    w.SameBut (some (.var name)) (w.set name value) :=
  { World.SameBut.refl (some (.var name)) w with
    vars := fun x hx => by
      have hne : x ≠ name := fun heq => hx (by rw [heq])
      rw [World.set, Store.set, Store.get?, Table.get?_insert, if_neg hne]
      rfl }

theorem sameBut_setProperty (w : World) (widget name : String) (value : PropertyValue) :
    w.SameBut (some (.property widget name))
      { w with host := w.host.setProperty widget name value } :=
  { World.SameBut.refl (some (.property widget name)) w with
    widgets := fun x hx => by
      have hne : x ≠ widget := fun heq => hx name (by rw [heq])
      exact (Table.get?_insert _ _ _ x).trans (if_neg hne)
    properties := fun x y hxy => by
      have hne : ¬ (x = widget ∧ y = name) := fun heq => hxy (by rw [heq.1, heq.2])
      exact (w.host.property?_setProperty widget name value x y).trans (if_neg hne)
    make := ⟨rfl, rfl, rfl, rfl, rfl⟩ }

theorem sameBut_log (w : World) (level : Level) (message : String) :
    w.SameBut (some .log) (w.log level message) := by
  rw [World.log, Host.log]
  split
  · exact { World.SameBut.refl (some .log) w with
      logs := .inr ⟨rfl, _, rfl⟩, make := ⟨rfl, rfl, rfl, rfl, rfl⟩ }
  · exact .refl _ w

theorem sameBut_closeWindow (w : World) (name : Option String) :
    w.SameBut (some .windows) { w with host := w.host.closeWindow name } := by
  obtain ⟨windows, hw⟩ := w.host.closeWindow_eq name
  rw [hw]
  exact { World.SameBut.refl (some .windows) w with
    windows := fun h => absurd rfl h, make := ⟨rfl, rfl, rfl, rfl, rfl⟩ }

/-- An effect changes the world at its place only. -/
theorem perform_sameBut {e : Effect} (h : (w.perform e).world? = some w') :
    w.SameBut e.place? w' := by
  cases e with
  | nothing | raise f =>
    cases h
    exact .refl _ w
  | assign name value =>
    cases h
    exact sameBut_set w name value
  | assignIdentifier name =>
    cases h
    exact { sameBut_set w name _ with }
  | setProperty widget name value =>
    cases h
    exact sameBut_setProperty w widget name value
  | log level message =>
    cases h
    exact sameBut_log w level message
  | closeWindow name =>
    cases h
    exact sameBut_closeWindow w name
  | navigate target =>
    cases h
    exact { World.SameBut.refl (some .navigations) w with
      navigations := .inr ⟨rfl, _, rfl⟩, make := ⟨rfl, rfl, rfl, rfl, rfl⟩ }
  | openWindow name =>
    cases h
    exact { World.SameBut.refl (some .windows) w with
      windows := fun h => absurd rfl h, make := ⟨rfl, rfl, rfl, rfl, rfl⟩ }
  | setClipboard text =>
    cases h
    exact { World.SameBut.refl (some .clipboard) w with
      clipboard := fun h => absurd rfl h, make := ⟨rfl, rfl, rfl, rfl, rfl⟩ }
  | alert title message =>
    cases h
    exact { World.SameBut.refl (some .alerts) w with
      alerts := .inr ⟨rfl, _, rfl⟩, make := ⟨rfl, rfl, rfl, rfl, rfl⟩ }
  | plugin tag =>
    cases h
    exact { World.SameBut.refl (some .pluginCalls) w with
      pluginCalls := .inr ⟨rfl, _, rfl⟩, make := ⟨rfl, rfl, rfl, rfl, rfl⟩ }

end Worlds

/-! ### The places that commands aim at -/

namespace Scope

variable (s : Scope) (n : Node)

/-- The variable that a command names. -/
def varPlace? : Option World.Place := (s.target? n).map .var

/-- A property of the widget that a text names. -/
def propertyPlace? (text name : String) : Option World.Place :=
  (s.widget? text).map fun widget => .property widget (Text.trim name)

/-- What a `Set` writes: a property if there is a target, else a variable. -/
def setPlace? : Option World.Place :=
  match s.attr? n "target" with
  | some target => s.propertyPlace? target (Effect.propertyName s n "property")
  | none => s.varPlace? n

/-- The property of its target that a command writes. -/
def flagPlace? (name : String) : Option World.Place :=
  (s.attr? n "target").bind (s.propertyPlace? · name)

/-- The property that a `CopyProperty` writes: the one it reads, unless another is named. -/
def copyPlace? : Option World.Place :=
  (s.attr? n "to").bind (s.propertyPlace? ·
    ((s.attr? n "toProperty").getD (Effect.propertyName s n "fromProperty")))

end Scope

/-- The place at which a command aims, as its attributes say. -/
def Command.place? (s : Scope) (n : Node) : Command → Option World.Place
  | .setVar | .get | .increment | .decrement | .multiply | .divide | .calculate | .toggle | .append
  | .clear | .substring | .replace | .toUpper | .toLower | .length | .newGuid | .now | .callFunction
  | .pasteFromClipboard => s.varPlace? n
  | .set => s.setPlace? n
  | .show | .hide => s.flagPlace? n "Visible"
  | .enable | .disable => s.flagPlace? n "IsEnabled"
  | .copyProperty => s.copyPlace? n
  | .navigate => some .navigations
  | .openWindow | .closeWindow => some .windows
  | .copyToClipboard => some .clipboard
  | .alert => some .alerts
  | .log => some .log
  | .unknown => some .pluginCalls
  | .throw | .delay | .branch | .switch | .forEach | .whileLoop | .tryCatch | .call | .sequence => none

namespace Effect

/-- The effect changes a place or nothing, or it writes to the log instead. -/
def Within (place : Option World.Place) (e : Effect) : Prop :=
  e.place? = none ∨ e.place? = some .log ∨ e.place? = place

variable {s : Scope} {n : Node} {place : Option World.Place}

theorem within_nothing : Within place .nothing := .inl rfl

theorem within_log (level : Level) (message : String) : Within place (.log level message) :=
  .inr (.inl rfl)

theorem within_onTarget {e : String → Effect} (h : ∀ name, (e name).Within (some (.var name))) :
    (onTarget s n e).Within (s.varPlace? n) := by
  unfold onTarget Scope.varPlace?
  cases s.target? n with
  | some name => exact h name
  | none => exact within_nothing

theorem within_assign (name : String) (value : Scalar) :
    Within (some (.var name)) (.assign name value) :=
  .inr (.inr rfl)

theorem within_onWidget {text : String} {e : String → Effect}
    (h : ∀ widget, s.widget? text = some widget → (e widget).Within place) :
    (onWidget s text e).Within place := by
  unfold onWidget
  split
  · rename_i widget hwidget
    exact h widget hwidget
  · exact within_log _ _

theorem within_unlessRefused (op : Operation) (subject : String) {e : Effect}
    (h : e.Within place) : (unlessRefused s op subject e).Within place := by
  unfold unlessRefused
  split
  · exact .inl rfl
  · exact h

theorem within_writeProperty (target name : String) (value : PropertyValue) :
    (writeProperty s target name value).Within (s.propertyPlace? target name) := by
  refine within_onWidget fun widget hwidget => within_unlessRefused _ _ ?_
  rw [Scope.propertyPlace?, hwidget]
  exact .inr (.inr rfl)

/-! ### Commands -/

theorem within_set : (set s n).Within (s.setPlace? n) := by
  unfold set Scope.setPlace?
  cases s.attr? n "target" with
  | some target => exact within_writeProperty _ _ _
  | none =>
    unfold Scope.varPlace?
    cases s.target? n with
    | some name => exact within_assign _ _
    | none => exact within_log _ _

theorem within_get : (get s n).Within (s.varPlace? n) := by
  unfold get
  split
  · rename_i hname
    refine within_onWidget fun widget _ => ?_
    rw [Scope.varPlace?, hname]
    split
    · exact within_assign _ _
    · exact within_nothing
  · exact within_nothing

theorem within_arithmetic (op : Arithmetic) : (arithmetic op s n).Within (s.varPlace? n) := by
  refine within_onTarget fun name => ?_
  dsimp only
  split
  · exact within_assign _ _
  · exact within_log _ _

theorem within_callFunction : (callFunction s n).Within (s.varPlace? n) := by
  unfold callFunction
  split
  · exact within_nothing
  · dsimp only
    split
    · exact within_onTarget fun name => within_assign _ _
    · exact within_log _ _

theorem within_pasteFromClipboard :
    (pasteFromClipboard s n).Within (s.varPlace? n) := by
  refine within_onTarget fun name => within_unlessRefused _ _ ?_
  split
  · exact within_assign _ _
  · exact within_nothing

theorem within_flag (name : String) (on : Bool) :
    (flag name on s n).Within (s.flagPlace? n name) := by
  unfold flag
  split
  · rename_i target htarget
    rw [Scope.flagPlace?, htarget, Option.bind_some]
    exact within_writeProperty _ _ _
  · exact within_nothing

theorem within_copyProperty : (copyProperty s n).Within (s.copyPlace? n) := by
  unfold copyProperty
  split
  · rename_i htarget
    refine within_onWidget fun widget _ => ?_
    split
    · rw [Scope.copyPlace?, htarget, Option.bind_some]
      exact within_writeProperty _ _ _
    · exact within_nothing
  · exact within_nothing

theorem within_goTo : (goTo s n).Within (some .navigations) := by
  unfold goTo
  split
  · exact within_unlessRefused _ _ (.inr (.inr rfl))
  · exact within_nothing

theorem within_showWindow : (showWindow s n).Within (some .windows) := by
  unfold showWindow
  split
  · exact within_unlessRefused _ _ (.inr (.inr rfl))
  · exact within_nothing

theorem within_pluginCommand : (pluginCommand s n).Within (some .pluginCalls) := by
  unfold pluginCommand
  split
  · split
    · exact .inl rfl
    · exact .inr (.inr rfl)
  · exact within_log _ _

end Effect

/-- A command changes the place at which it aims, or writes to the log, or changes nothing. -/
theorem Command.within_effect (c : Command) (moment : Moment) (s : Scope) (n : Node) :
    (c.effect moment s n).Within (c.place? s n) := by
  open Effect in
  unfold effect
  cases c with
  | set => exact within_set
  | get => exact within_get
  | increment | decrement | multiply | divide => exact within_arithmetic _
  | callFunction => exact within_callFunction
  | setVar | calculate | toggle | append | clear | substring | replace | toUpper | toLower | length
  | now => exact within_onTarget fun _ => within_assign _ _
  | newGuid => exact within_onTarget fun _ => .inr (.inr rfl)
  | «show» | hide | enable | disable => exact within_flag _ _
  | copyProperty => exact within_copyProperty
  | navigate => exact within_goTo
  | openWindow => exact within_showWindow
  | closeWindow | copyToClipboard | alert => exact within_unlessRefused _ _ (.inr (.inr rfl))
  | pasteFromClipboard => exact within_pasteFromClipboard
  | log => exact within_log _ _
  | throw => exact .inl rfl
  | unknown => exact within_pluginCommand
  | delay | branch | switch | forEach | whileLoop | tryCatch | call | sequence => exact within_nothing

/-- An effect on a variable assigns it. -/
theorem Effect.assigned?_of_place? {e : Effect} {name : String} (h : e.place? = some (.var name)) :
    e.assigned? = some name := by
  cases e <;> first | cases h; rfl | cases h

/-- However a leaf ends, it has changed the world at one place at most: where its attributes say, or
    by one line in the log. A variable that it changes is the one that it names. -/
theorem leaf_changes_one_place (p : Program) (depth : Nat) (sender : Option String) (n : Node)
    (w : World) (hleaf : n.IsLeaf) :
    ∃ w', (execute p (depth + 1) sender n w).world? = some w' ∧
      ∃ place, w.SameBut place w' ∧
        (place = none ∨ place = some .log ∨
          place = (Command.ofTag n.tag).place? (w.scope sender) n) ∧
        ∀ name, place = some (.var name) → (w.scope sender).target? n = some name := by
  rw [execute_leaf hleaf]
  have hwithin := Command.within_effect (Command.ofTag n.tag) (p.start.later w.elapsed)
    (w.scope sender) n
  obtain ⟨w', hw'⟩ : ∃ w', (w.perform (n.effectAt p sender w)).world? = some w' := by
    cases n.effectAt p sender w <;> exact ⟨_, rfl⟩
  refine ⟨w', hw', _, perform_sameBut hw', hwithin, fun name hname => ?_⟩
  exact Command.target?_of_assigned? (Effect.assigned?_of_place? hname)

/-- A `Set` with a target and a variable. -/
def Node.labelling : Node where
  tag := "SET"
  attributes := Table.ofList
    [("Target", " lbl "), ("property", " Text "), ("value", "{x}"), ("var", "x")]

/-- A world with a variable and a host that knows every widget. -/
def World.roomy : World where
  store := Store.set {} "x" (.str "hi")
  host := { permissive := true }

/-- The `Set` makes the widget and writes its property; the variable that it names too is left alone,
    as is all else. -/
theorem leaf_changes_one_place_target : Node.labelling.IsLeaf ∧
    ∃ w', (execute {} 1 none .labelling .roomy).world? = some w' ∧
      w'.host.property? "lbl" "Text" = some (.scalar (.str "hi")) ∧
      World.roomy.SameBut (some (.property "lbl" "Text")) w' := by
  have hleaf : Node.labelling.IsLeaf := by decide +kernel
  obtain ⟨w', hw', place, hsame, hplace, -⟩ := leaf_changes_one_place {} 0 none .labelling .roomy hleaf
  have hproperty : (execute {} 1 none .labelling .roomy).world?.bind
      (·.host.property? "lbl" "Text") = some (.scalar (.str "hi")) := rfl
  rw [hw', Option.bind_some] at hproperty
  have haims : (Command.ofTag Node.labelling.tag).place? (World.roomy.scope none) .labelling =
      some (.property "lbl" "Text") := rfl
  have hother : ∀ other, other ≠ some (.property "lbl" "Text") → place ≠ other := by
    rintro other hne rfl
    cases (hsame.properties "lbl" "Text" hne).symm.trans hproperty
  refine ⟨hleaf, w', hw', hproperty, ?_⟩
  rcases hplace with rfl | rfl | rfl
  · exact absurd rfl (hother none (by decide))
  · exact absurd rfl (hother (some .log) (by decide))
  · rwa [haims] at hsame

end HandlerScript
