import HandlerScript.Proofs.Run.Depth
import HandlerScript.Proofs.Run.Host

/-! Events are handled once, in order, and contained.

    A `Delay` takes the whole queue of the host at its first look and invokes the handler of each event
    in turn. Nothing that the handlers do puts events into the queue, so a `Delay` inside one of them
    finds it empty, and so does every later look of the outer one: from then on waiting only lets time
    pass. What is left is therefore the world after the plain invocations, some milliseconds later. -/

namespace HandlerScript

/-- The world with no events pending. -/
def World.drained (w : World) : World := { w with host := { w.host with pending := [] } }

/-- Invokes the handlers of events one after the other, whatever their outcomes. -/
def invokeEach (p : Program) (depth : Nat) (events : List Event) (w : World) : Option World :=
  events.foldlM (fun w e => (invoke p depth e.handler e.sender w).map Prod.snd) w

/-- The run that ends well in a world, or has no end within the depth. -/
def Run.ofWorld? : Option World → Run
  | some w => .done w
  | none => .tooDeep

section Handling

variable (p : Program) (depth : Nat)

theorem invokeEach_cons (e : Event) (es : List Event) (w : World) :
    invokeEach p depth (e :: es) w =
      (invoke p depth e.handler e.sender w).bind fun x => invokeEach p depth es x.2 := by
  rw [invokeEach, List.foldlM_cons]
  cases invoke p depth e.handler e.sender w <;> rfl

/-- Handling events is invoking their handlers in order; no fault of theirs gets out. -/
theorem handleAll_eq : ∀ (events : List Event) (w : World),
    handleAll p.registry (execute p depth) events w = .ofWorld? (invokeEach p depth events w)
  | [], _ => rfl
  | e :: es, w => by
    have hinvoke : invokeWith p.registry (execute p depth) e.handler e.sender w =
        invoke p depth e.handler e.sender w := rfl
    rw [handleAll, hinvoke, invokeEach_cons]
    cases invoke p depth e.handler e.sender w with
    | none => rfl
    | some x => exact handleAll_eq es x.2

variable {p depth}

/-- Invocations that end give the same under any greater depth. -/
theorem invokeEach_mono {m : Nat} (h : depth ≤ m) : ∀ {events : List Event} {w w' : World},
    invokeEach p depth events w = some w' → invokeEach p m events w = some w'
  | [], _, _, hw => hw
  | e :: es, w, w', hw => by
    rw [invokeEach_cons] at hw ⊢
    obtain ⟨x, hx, hes⟩ := Option.bind_eq_some_iff.1 hw
    rw [invoke_mono h hx]
    exact invokeEach_mono h hes

end Handling

/-- Invoking handlers keeps an invariant. -/
theorem invokeEach_keeps_invariant {p : Program} {depth : Nat} {I : World → Prop} (hI : Invariant I) :
    ∀ {events : List Event} {w w' : World}, I w → invokeEach p depth events w = some w' → I w'
  | [], _, _, hw, h => by
    cases h
    exact hw
  | e :: es, w, w', hw, h => by
    rw [invokeEach_cons] at h
    obtain ⟨x, hx, hes⟩ := Option.bind_eq_some_iff.1 h
    exact invokeEach_keeps_invariant hI (invoke_keeps_invariant hI hw hx) hes

/-! ### Waiting -/

/-- Taking the events of a host that has none to take changes nothing. -/
theorem Host.pump_of_quiet {h : Host} (hquiet : h.pump.1 = []) : h.pump.2 = h := by
  unfold pump at hquiet ⊢
  split at hquiet
  · have hpending : h.pending = [] := hquiet
    rw [← hpending]
  · rfl

/-- A host of all operations gives its whole queue away. -/
theorem Host.pump_full {h : Host} (hfull : h.reach = .full) :
    h.pump = (h.pending, { h with pending := [] }) := by
  unfold pump
  split
  · rfl
  · rename_i hreach
    rw [hfull] at hreach
    cases hreach

section Waiting

variable {p : Program} {w : World}

theorem pumpEvents_quiet (registry : Registry) (run : Runner) (hw : w.Quiet) :
    pumpEvents registry run w = .done w := by
  have hevents : w.host.pump.1 = [] := hw
  rw [pumpEvents]
  dsimp only
  rw [hevents, Host.pump_of_quiet hevents]
  rfl

/-- Where there are no events to take, waiting only lets time pass. -/
theorem waitUntil_quiet (run : Runner) (deadline : Nat) : ∀ (rounds : Nat) {w : World}, w.Quiet →
    ∃ ms, waitUntil p run deadline rounds w = .done { w with elapsed := w.elapsed + ms }
  | 0, _, _ => ⟨0, rfl⟩
  | rounds + 1, w, hw => by
    rw [waitUntil, pumpEvents_quiet p.registry run hw]
    simp only [Run.andThen]
    split
    · exact ⟨0, rfl⟩
    · obtain ⟨ms, hms⟩ := waitUntil_quiet run deadline rounds
        (quiet_invariant.wait (min (max p.limits.pumpInterval 1) (deadline - w.elapsed)) hw)
      exact ⟨_, by rw [hms, Nat.add_assoc]⟩

/-- Waiting takes the events at its first look, invokes their handlers in order, and from then on lets
    time pass. -/
theorem waitUntil_eq (depth deadline rounds : Nat) :
    ∃ ms, waitUntil p (execute p depth) deadline (rounds + 1) w = .ofWorld?
      ((invokeEach p depth w.host.pump.1 { w with host := w.host.pump.2 }).map fun w' =>
        { w' with elapsed := w'.elapsed + ms }) := by
  rw [waitUntil, pumpEvents]
  dsimp only
  rw [handleAll_eq]
  cases h : invokeEach p depth w.host.pump.1 { w with host := w.host.pump.2 } with
  | none => exact ⟨0, rfl⟩
  | some w' =>
    have hquiet : w'.Quiet := invokeEach_keeps_invariant quiet_invariant (quiet_pumped w) h
    simp only [Run.ofWorld?, Run.andThen, Option.map_some]
    split
    · exact ⟨0, rfl⟩
    · obtain ⟨ms, hms⟩ := waitUntil_quiet (execute p depth) deadline rounds
        (quiet_invariant.wait (min (max p.limits.pumpInterval 1) (deadline - w'.elapsed)) hquiet)
      exact ⟨_, by rw [hms, Nat.add_assoc]⟩

end Waiting

/-! ### Delays -/

theorem Command.ofTag_delay {node : Node} (h : node.hasTag "Delay" = true) :
    Command.ofTag node.tag = .delay :=
  ofTag_of_hasTag h

section Delay

variable {p : Program} {node : Node} {w : World}

/-- A delay on a host of all operations comes to the invocations of its events in order, from the
    world without events on. -/
theorem execute_delay (p : Program) (sender : Option String)
    (hdelay : node.hasTag "Delay" = true) (hfull : w.host.reach = .full) (depth : Nat) :
    ∃ ms, execute p (depth + 1) sender node w = .ofWorld?
      ((invokeEach p depth w.host.pending w.drained).map fun w' =>
        { w' with elapsed := w'.elapsed + ms }) := by
  rw [execute, step_delay (Command.ofTag_delay hdelay), delay]
  obtain ⟨ms, hms⟩ := waitUntil_eq (p := p) (w := w) depth _ _
  rw [hms, Host.pump_full hfull]
  exact ⟨ms, rfl⟩

/-- Events that are taken one after the other leave the queue empty. -/
theorem pending_of_invokeEach {depth : Nat} {w' : World} (hfull : w.host.reach = .full)
    (h : invokeEach p depth w.host.pending w.drained = some w') : w'.host.pending = [] := by
  have hquiet : w.drained.Quiet := by
    rw [World.Quiet, Host.pump_full (h := w.drained.host) hfull]
    rfl
  have hquiet' : w'.host.pump.1 = [] := invokeEach_keeps_invariant quiet_invariant hquiet h
  have hmake : w.drained.host.SameMake w'.host :=
    invokeEach_keeps_invariant (sameMake_invariant w.drained.host) (.refl _) h
  rwa [Host.pump_full (hmake.reach.trans hfull)] at hquiet'

end Delay

/-- A delay that ends does so without a fault, with an empty queue, and with the store and the host
    that the handlers of the pending events leave when each is invoked once, in the order of the queue,
    starting without events; only time has passed besides. It ends whenever those invocations do. -/
theorem delay_handles_events (p : Program) (sender : Option String) (node : Node) (w : World)
    (hdelay : node.hasTag "Delay" = true) (hfull : w.host.reach = .full) :
    (∀ depth, execute p depth sender node w ≠ .tooDeep →
      ∃ w' ms, invokeEach p depth w.host.pending w.drained = some w' ∧
        execute p depth sender node w = .done { w' with elapsed := w'.elapsed + ms } ∧
        w'.host.pending = []) ∧
    ∀ depth w', invokeEach p depth w.host.pending w.drained = some w' →
      execute p (depth + 1) sender node w ≠ .tooDeep := by
  refine ⟨fun depth hends => ?_, fun depth w' h hdeep => ?_⟩
  · cases depth with
    | zero => exact absurd rfl hends
    | succ depth =>
      obtain ⟨ms, hms⟩ := execute_delay p sender hdelay hfull depth
      cases h : invokeEach p depth w.host.pending w.drained with
      | none =>
        rw [h] at hms
        exact absurd hms hends
      | some w' =>
        rw [h] at hms
        exact ⟨w', ms, invokeEach_mono (Nat.le_succ depth) h, hms, pending_of_invokeEach hfull h⟩
  · obtain ⟨ms, hms⟩ := execute_delay p sender hdelay hfull depth
    rw [h, hdeep] at hms
    cases hms

/-- A handler that waits for an event and then faults, and one that writes to the log. -/
def Program.eventful : Program :=
  { registry := Registry.registerAll {}
      [⟨"Stop", [{ tag := "Log", text := some "stopping" }, { tag := "Delay" }, { tag := "Throw" }]⟩,
        ⟨"Note", [{ tag := "Log", text := some "noted" }]⟩] }

/-- A world with three events, one of them for a handler that there is not. -/
def World.threefold : World :=
  { host := { pending := [⟨"Stop", none⟩, ⟨"Missing", none⟩, ⟨"Note", some "btn"⟩] } }

/-- The first of three events waits and faults, the second has no handler: the third is handled all
    the same, and after the others. -/
theorem delay_handles_events_threefold :
    ∃ w', invokeEach .eventful 3 World.threefold.host.pending World.threefold.drained = some w' ∧
      w'.host.logs.toList = [(.info, "stopping"), (.error, "Handler `Stop` failed: Error"),
        (.warn, "No handler named `Missing`"), (.info, "noted")] ∧
      ∃ ms, execute .eventful 3 none { tag := "delay" } .threefold =
          .done { w' with elapsed := w'.elapsed + ms } ∧ w'.host.pending = [] := by
  obtain ⟨w', ms, hw', hrun, hpending⟩ :=
    (delay_handles_events .eventful none { tag := "delay" } .threefold (by decide +kernel) rfl).1 3
      Run.noConfusion
  refine ⟨w', hw', ?_, ms, hrun, hpending⟩
  cases hw'
  rfl

end HandlerScript
