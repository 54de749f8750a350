import HandlerScript.Proofs.Run.Meets
import HandlerScript.Proofs.Table

/-! What running leaves alone in the host.

    How a host is made never changes: which widgets it answers for, which operations fail, and what it
    adds. Nothing that a program does puts events into the queue; they are only taken, all at once, so
    a host without events to take stays so. -/

namespace HandlerScript

/-- Two hosts of the same make: only what they record and hold may differ. -/
structure Host.SameMake (h h' : Host) : Prop where
  permissive : h'.permissive = h.permissive
  failures : h'.failures = h.failures
  functions : h'.functions = h.functions
  commands : h'.commands = h.commands
  reach : h'.reach = h.reach

namespace Host.SameMake

theorem refl (h : Host) : h.SameMake h := ⟨rfl, rfl, rfl, rfl, rfl⟩

theorem trans {a b c : Host} (h : a.SameMake b) (h' : b.SameMake c) : a.SameMake c :=
  ⟨h'.permissive.trans h.permissive, h'.failures.trans h.failures, h'.functions.trans h.functions,
    h'.commands.trans h.commands, h'.reach.trans h.reach⟩

theorem log (h : Host) (level : Level) (message : String) : h.SameMake (h.log level message) := by
  unfold Host.log
  split <;> exact ⟨rfl, rfl, rfl, rfl, rfl⟩

theorem pump (h : Host) : h.SameMake h.pump.2 := by
  unfold Host.pump
  split <;> exact ⟨rfl, rfl, rfl, rfl, rfl⟩

end Host.SameMake

theorem Host.log_pending (h : Host) (level : Level) (message : String) :
    (h.log level message).pending = h.pending := by
  unfold Host.log
  split <;> rfl

theorem Host.closeWindow_eq (h : Host) (name : Option String) :
    ∃ windows, h.closeWindow name = { h with windows := windows } := by
  cases name <;> exact ⟨_, rfl⟩

/-- A property has the value written last. -/
theorem Host.property?_setProperty (h : Host) (widget name : String) (value : PropertyValue)
    (x y : String) : (h.setProperty widget name value).property? x y =
      if x = widget ∧ y = name then some value else h.property? x y := by
  simp only [property?, setProperty, Table.get?_insert]
  by_cases hx : x = widget
  · subst hx
    rw [if_pos rfl, Option.bind_some, Table.get?_insert]
    by_cases hy : y = name
    · rw [if_pos hy, if_pos ⟨rfl, hy⟩]
    · rw [if_neg hy, if_neg fun heq => hy heq.2]
      cases h.widgets.get? x <;> rfl
  · rw [if_neg hx, if_neg fun heq => hx heq.1]

section Perform

variable {w w' : World} {e : Effect}

theorem perform_sameMake (h : w.perform e = .done w') : w.host.SameMake w'.host := by
  cases e with
  | log level message =>
    cases h
    exact .log w.host level message
  | closeWindow name =>
    obtain ⟨windows, hw⟩ := w.host.closeWindow_eq name
    cases h
    rw [hw]
    exact ⟨rfl, rfl, rfl, rfl, rfl⟩
  | raise f => cases h
  | _ =>
    cases h
    exact ⟨rfl, rfl, rfl, rfl, rfl⟩

theorem perform_pending (h : w.perform e = .done w') : w'.host.pending = w.host.pending := by
  cases e with
  | log level message =>
    cases h
    exact w.host.log_pending level message
  | closeWindow name =>
    obtain ⟨windows, hw⟩ := w.host.closeWindow_eq name
    cases h
    rw [hw]
  | raise f => cases h
  | _ =>
    cases h
    rfl

end Perform

/-- The host stays of the make that it started with. -/
theorem sameMake_invariant (h : Host) : Invariant fun w => h.SameMake w.host :=
  .of_perform (fun hw hp => hw.trans (perform_sameMake hp)) (fun hw => hw.trans (.pump _))
    fun _ hw => hw

/-- No events are there to be taken. -/
def World.Quiet (w : World) : Prop := w.host.pump.1 = []

theorem Host.pump_pump (h : Host) : h.pump.2.pump.1 = [] := by
  cases hr : h.reach <;> simp [Host.pump, hr]

theorem quiet_pumped (w : World) : World.Quiet { w with host := w.host.pump.2 } :=
  w.host.pump_pump

theorem Host.pump_congr {h h' : Host} (hpending : h'.pending = h.pending)
    (hreach : h'.reach = h.reach) : h'.pump.1 = h.pump.1 := by
  cases hr : h.reach <;> simp [Host.pump, hreach, hr, hpending]

theorem perform_quiet {w w' : World} {e : Effect} (hw : w.Quiet) (h : w.perform e = .done w') :
    w'.Quiet := by
  rw [World.Quiet, Host.pump_congr (perform_pending h) (perform_sameMake h).reach]
  exact hw

theorem quiet_invariant : Invariant World.Quiet :=
  .of_perform perform_quiet (fun _ => quiet_pumped _) fun _ hw => hw

end HandlerScript
