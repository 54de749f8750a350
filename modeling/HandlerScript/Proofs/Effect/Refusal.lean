import HandlerScript.Proofs.Effect.Operations
import HandlerScript.Proofs.Run.Leaf
import HandlerScript.Proofs.Run.Meets

/-! Leaf commands that fail.

    A leaf fails in one of three ways: a `Throw` always does, an operation that a command asks of the
    host can be refused, and a command that the host adds can be made to fail. `Command.request?` tells
    from the attributes of a node which operation its command asks for, if it gets so far: a widget has
    to be found for a property to be written, and a property for it to be copied. A leaf fails exactly
    if one of the three is the case, and the world is then as it was before. So it is although a leaf runs
    step by step, and a step that fails keeps what the steps before it have changed. -/

namespace HandlerScript

/-! ### What commands ask of the host -/

namespace Scope

variable (s : Scope) (n : Node)

/-- A property is to be written of the widget that an attribute names. -/
def writeRequest? (attr : String) : Option (Operation × String) :=
  ((s.attr? n attr).bind s.widget?).map fun _ => (.setProperty, "")

/-- The property that a `CopyProperty` reads. -/
def copiedValue? : Option PropertyValue :=
  ((s.attr? n "from").bind s.widget?).bind
    (s.host.property? · (Effect.propertyName s n "fromProperty"))

/-- An operation on what the first of some attributes says. -/
def textRequest? (op : Operation) (attrs : List String) : Option (Operation × String) :=
  (s.attrOf? n attrs).map fun text => (op, Text.trim text)

end Scope

/-- The operation that a command asks of the host, and what it is about. -/
def Command.request? (s : Scope) (n : Node) : Command → Option (Operation × String)
  | .set | .show | .hide | .enable | .disable => s.writeRequest? n "target"
  | .copyProperty => (s.copiedValue? n).bind fun _ => s.writeRequest? n "to"
  | .navigate => s.textRequest? n .navigate ["to", "target"]
  | .openWindow => s.textRequest? n .openWindow ["name", "window"]
  | .closeWindow => some (.closeWindow, "")
  | .copyToClipboard => some (.setClipboard, "")
  | .pasteFromClipboard => (s.target? n).map fun _ => (.clipboard, "")
  | .alert => some (.showAlert, "")
  | _ => none

/-- The ways in which a command fails. -/
inductive Command.Fails (s : Scope) (n : Node) : Command → Fault → Prop
  | thrown : Fails s n .throw
      (.raised (if (s.messageText n).isEmpty then "Error" else s.messageText n))
  | refused {c : Command} {op : Operation} {subject message : String} :
      c.request? s n = some (op, subject) → s.host.refusal? op subject = some message →
      Fails s n c (.host op message)
  | added {message : String} : s.host.addsCommand n.tag = true →
      s.host.failures.get? n.tag = some message → Fails s n .unknown (.plugin n.tag message)

/-- The fault is the refusal of a request. -/
def Scope.Refuses (s : Scope) (request : Option (Operation × String)) (f : Fault) : Prop :=
  ∃ op subject message, request = some (op, subject) ∧ s.host.refusal? op subject = some message ∧
    f = .host op message

section Failing

variable {s : Scope} {n : Node} {f : Fault} {c : Command}

theorem not_refuses_none : ¬ s.Refuses none f := by
  rintro ⟨_, _, _, h, -⟩
  cases h

/-- All commands but two fail by a refusal only. -/
theorem fails_iff_refuses (hthrow : c ≠ .throw) (hunknown : c ≠ .unknown) :
    c.Fails s n f ↔ s.Refuses (c.request? s n) f := by
  constructor
  · intro h
    cases h with
    | thrown => exact absurd rfl hthrow
    | refused hrequest hm => exact ⟨_, _, _, hrequest, hm, rfl⟩
    | added _ _ => exact absurd rfl hunknown
  · rintro ⟨op, subject, message, hrequest, hm, rfl⟩
    exact .refused hrequest hm

namespace Effect

/-! ### Parts of commands -/

theorem onTarget_ne_raise {e : String → Effect} (h : ∀ name, e name ≠ .raise f) :
    onTarget s n e ≠ .raise f := by
  unfold onTarget
  split
  · exact h _
  · exact Effect.noConfusion

/-- An effect that raises nothing, unless it is refused. -/
theorem unlessRefused_eq_raise_iff {op : Operation} {subject : String} {e : Effect}
    (he : e ≠ .raise f) :
    unlessRefused s op subject e = .raise f ↔ s.Refuses (some (op, subject)) f := by
  unfold unlessRefused
  cases hrefusal : s.host.refusal? op subject with
  | some message =>
    constructor
    · intro h
      cases h
      exact ⟨op, subject, message, rfl, hrefusal, rfl⟩
    · rintro ⟨_, _, _, hrequest, hm, rfl⟩
      cases hrequest
      cases hrefusal.symm.trans hm
      rfl
  | none =>
    refine ⟨fun h => absurd h he, ?_⟩
    rintro ⟨_, _, _, hrequest, hm, -⟩
    cases hrequest
    cases hrefusal.symm.trans hm

theorem writeProperty_eq_raise_iff {target name : String} {value : PropertyValue} :
    writeProperty s target name value = .raise f ↔
      s.Refuses ((s.widget? target).map fun _ => (.setProperty, "")) f := by
  unfold writeProperty onWidget
  cases s.widget? target with
  | some widget => exact unlessRefused_eq_raise_iff Effect.noConfusion
  | none => exact iff_of_false Effect.noConfusion not_refuses_none

/-! ### Commands -/

theorem set_eq_raise_iff : set s n = .raise f ↔ s.Refuses (s.writeRequest? n "target") f := by
  unfold set Scope.writeRequest?
  cases s.attr? n "target" with
  | some target =>
    rw [Option.bind_some]
    exact writeProperty_eq_raise_iff
  | none =>
    refine iff_of_false ?_ not_refuses_none
    cases s.target? n <;> exact Effect.noConfusion

theorem flag_eq_raise_iff (name : String) (on : Bool) :
    flag name on s n = .raise f ↔ s.Refuses (s.writeRequest? n "target") f := by
  unfold flag Scope.writeRequest?
  cases s.attr? n "target" with
  | some target =>
    rw [Option.bind_some]
    exact writeProperty_eq_raise_iff
  | none => exact iff_of_false Effect.noConfusion not_refuses_none

theorem copyProperty_eq_raise_iff : copyProperty s n = .raise f ↔
    s.Refuses ((s.copiedValue? n).bind fun _ => s.writeRequest? n "to") f := by
  unfold copyProperty Scope.copiedValue? Scope.writeRequest?
  cases s.attr? n "from" with
  | none => exact iff_of_false Effect.noConfusion not_refuses_none
  | some source =>
    cases s.attr? n "to" with
    | none =>
      rw [Option.bind_none, Option.map_none, Option.bind_fun_none]
      exact iff_of_false Effect.noConfusion not_refuses_none
    | some target =>
      simp only [onWidget, Option.bind_some]
      cases s.widget? source with
      | none => exact iff_of_false Effect.noConfusion not_refuses_none
      | some widget =>
        simp only [Option.bind_some]
        cases s.host.property? widget (propertyName s n "fromProperty") with
        | none => exact iff_of_false Effect.noConfusion not_refuses_none
        | some value =>
          rw [Option.bind_some]
          exact writeProperty_eq_raise_iff

theorem goTo_eq_raise_iff :
    goTo s n = .raise f ↔ s.Refuses (s.textRequest? n .navigate ["to", "target"]) f := by
  unfold goTo Scope.textRequest?
  cases s.attrOf? n ["to", "target"] with
  | some text => exact unlessRefused_eq_raise_iff Effect.noConfusion
  | none => exact iff_of_false Effect.noConfusion not_refuses_none

theorem showWindow_eq_raise_iff :
    showWindow s n = .raise f ↔ s.Refuses (s.textRequest? n .openWindow ["name", "window"]) f := by
  unfold showWindow Scope.textRequest?
  cases s.attrOf? n ["name", "window"] with
  | some text => exact unlessRefused_eq_raise_iff Effect.noConfusion
  | none => exact iff_of_false Effect.noConfusion not_refuses_none

theorem pasteFromClipboard_eq_raise_iff : pasteFromClipboard s n = .raise f ↔
    s.Refuses ((s.target? n).map fun _ => (.clipboard, "")) f := by
  unfold pasteFromClipboard onTarget
  cases s.target? n with
  | some name =>
    refine unlessRefused_eq_raise_iff ?_
    split <;> exact Effect.noConfusion
  | none => exact iff_of_false Effect.noConfusion not_refuses_none

theorem pluginCommand_eq_raise_iff :
    pluginCommand s n = .raise f ↔ Command.Fails s n .unknown f := by
  unfold pluginCommand
  constructor
  · intro h
    split at h
    · rename_i hadds
      split at h
      · rename_i message hm
        cases h
        exact .added hadds hm
      · cases h
    · cases h
  · intro h
    cases h with
    | refused hrequest _ => cases hrequest
    | added hadds hm => rw [if_pos hadds, hm]

theorem get_ne_raise : get s n ≠ .raise f := by
  unfold get onWidget
  split
  · split
    · dsimp only
      split <;> exact Effect.noConfusion
    · exact Effect.noConfusion
  · exact Effect.noConfusion

theorem arithmetic_ne_raise (op : Arithmetic) : arithmetic op s n ≠ .raise f := by
  refine onTarget_ne_raise fun name => ?_
  dsimp only
  split <;> exact Effect.noConfusion

theorem callFunction_ne_raise : callFunction s n ≠ .raise f := by
  unfold callFunction
  split
  · exact Effect.noConfusion
  · dsimp only
    split
    · exact onTarget_ne_raise fun _ => Effect.noConfusion
    · exact Effect.noConfusion

theorem throwFault_eq_raise_iff : throwFault s n = .raise f ↔ Command.Fails s n .throw f := by
  constructor
  · intro h
    cases h
    exact .thrown
  · intro h
    cases h with
    | thrown => rfl
    | refused hrequest _ => cases hrequest

end Effect

/-- All commands but two settle on raising a fault exactly if their request is refused with it. -/
theorem Command.effect_eq_raise_iff_refuses (c : Command) (moment : Moment) (hthrow : c ≠ .throw)
    (hunknown : c ≠ .unknown) :
    c.effect moment s n = .raise f ↔ s.Refuses (c.request? s n) f := by
  open Effect in
  unfold effect
  cases c with
  | throw => exact absurd rfl hthrow
  | unknown => exact absurd rfl hunknown
  | set => exact set_eq_raise_iff
  | «show» | hide | enable | disable => exact flag_eq_raise_iff _ _
  | copyProperty => exact copyProperty_eq_raise_iff
  | navigate => exact goTo_eq_raise_iff
  | openWindow => exact showWindow_eq_raise_iff
  | closeWindow | copyToClipboard | alert => exact unlessRefused_eq_raise_iff Effect.noConfusion
  | pasteFromClipboard => exact pasteFromClipboard_eq_raise_iff
  | get => exact iff_of_false get_ne_raise not_refuses_none
  | increment | decrement | multiply | divide =>
    exact iff_of_false (arithmetic_ne_raise _) not_refuses_none
  | callFunction => exact iff_of_false callFunction_ne_raise not_refuses_none
  | setVar | calculate | toggle | append | clear | substring | replace | toUpper | toLower | length
  | newGuid | now =>
    exact iff_of_false (onTarget_ne_raise fun _ => Effect.noConfusion) not_refuses_none
  | log | delay | branch | switch | forEach | whileLoop | tryCatch | call | sequence =>
    exact iff_of_false Effect.noConfusion not_refuses_none

/-- A command settles on raising a fault exactly if it fails with it. -/
theorem Command.effect_eq_raise_iff (c : Command) (moment : Moment) :
    c.effect moment s n = .raise f ↔ c.Fails s n f := by
  by_cases hthrow : c = .throw
  · subst hthrow
    exact Effect.throwFault_eq_raise_iff
  · by_cases hunknown : c = .unknown
    · subst hunknown
      exact Effect.pluginCommand_eq_raise_iff
    · rw [effect_eq_raise_iff_refuses c moment hthrow hunknown, fails_iff_refuses hthrow hunknown]

end Failing

/-- A leaf that ends in a fault leaves the world as it was: the variables, and all that the host holds
    and has recorded. It ends so, with a given fault, exactly if it fails with that fault. It runs as the
    steps of its command, in which a fault would keep any change before it. -/
theorem failing_leaf_changes_nothing (p : Program) (sender : Option String) (n : Node) (w : World)
    (hleaf : n.IsLeaf) :
    (∀ depth f w', execute p depth sender n w = .fault f w' → w' = w) ∧
    (∀ depth f, execute p (depth + 1) sender n w = .fault f w ↔
      (Command.ofTag n.tag).Fails (w.scope sender) n f) ∧
    ∀ depth, execute p (depth + 1) sender n w =
      ((Command.ofTag n.tag).act (p.start.later w.elapsed) sender n).outcome w := by
  refine ⟨fun depth f w' h => ?_, fun depth f => ?_, fun depth => ?_⟩
  · cases depth with
    | zero => cases h
    | succ depth =>
      rw [execute_leaf hleaf] at h
      exact (perform_eq_fault h).2
  · rw [execute_leaf hleaf, ← Command.effect_eq_raise_iff _ (p.start.later w.elapsed)]
    constructor
    · exact fun h => (perform_eq_fault h).1
    · intro h
      rw [Node.effectAt, h]
      rfl
  · rw [execute_leaf hleaf, Command.outcome_act, Node.effectAt]

/-- Copies the usual property of one widget into another. -/
def Node.copying : Node where
  tag := "copyProperty"
  attributes := Table.ofList [("from", " a "), ("to", "b")]

/-- A world whose host knows every widget, has one with a property, and refuses to write any. -/
def World.locked : World where
  host :=
    { Host.setProperty {} "a" "Text" (.scalar (.str "hi")) with
      permissive := true, failures := Table.ofList [("set_property", "read-only")] }

/-- The copy gets as far as writing, which is refused; the second widget is not made. -/
theorem failing_leaf_changes_nothing_copying : Node.copying.IsLeaf ∧
    (Command.ofTag Node.copying.tag).Fails (World.locked.scope none) .copying
      (.host .setProperty "read-only") ∧
    ∃ w', execute {} 1 none .copying .locked = .fault (.host .setProperty "read-only") w' ∧
      (Command.copyProperty.act ⟨0, 0⟩ none .copying).outcome .locked =
        .fault (.host .setProperty "read-only") w' ∧
      w' = .locked ∧ w'.host.widgets.names = ["a"] := by
  have hleaf : Node.copying.IsLeaf := by decide +kernel
  obtain ⟨hsame, hfails, hsteps⟩ := failing_leaf_changes_nothing {} none .copying .locked hleaf
  have hrequest : (Command.ofTag Node.copying.tag).request? (World.locked.scope none) .copying =
      some (.setProperty, "") := rfl
  have hfail : (Command.ofTag Node.copying.tag).Fails (World.locked.scope none) .copying
      (.host .setProperty "read-only") := .refused hrequest rfl
  have hrun := (hfails 0 _).2 hfail
  exact ⟨hleaf, hfail, _, hrun, (hsteps 0).symm.trans hrun, hsame 1 _ _ hrun, rfl⟩

end HandlerScript
