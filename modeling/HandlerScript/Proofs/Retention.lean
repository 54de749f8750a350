import HandlerScript.Proofs.Effect.Choice
import HandlerScript.Proofs.Run.Host
import HandlerScript.Proofs.Table
import HandlerScript.Session

/-! Nothing that was recorded is lost.

    `w.Keeps w'` says that the world `w'` still has what the world `w` holds: its variables, its widgets
    with their properties, some text on the clipboard, and the records of the host, which only grow at
    their ends. How the host is made has not changed, and its queue of events is what it was, or has
    been taken as a whole. Each effect keeps the world in this sense, and so do taking the events and
    waiting; the relation is transitive, so whole runs keep it, however they end. -/

namespace HandlerScript

/-- The second host still has what the first holds and has recorded. -/
structure Host.Keeps (h h' : Host) : Prop where
  widgets : ∀ widget, h.widgets.contains widget = true → h'.widgets.contains widget = true
  properties : ∀ widget property, (h.property? widget property).isSome = true →
    (h'.property? widget property).isSome = true
  logs : h.logs.toList <+: h'.logs.toList
  alerts : h.alerts.toList <+: h'.alerts.toList
  navigations : h.navigations.toList <+: h'.navigations.toList
  pluginCalls : h.pluginCalls.toList <+: h'.pluginCalls.toList
  clipboard : h.clipboard.isSome = true → h'.clipboard.isSome = true
  pending : h'.pending = h.pending ∨ h'.pending = []
  make : h.SameMake h'

/-- The second world still has what the first holds and has recorded. -/
structure World.Keeps (w w' : World) : Prop where
  vars : ∀ name, w.store.contains name = true → w'.store.contains name = true
  host : w.host.Keeps w'.host

namespace Host.Keeps

theorem refl (h : Host) : h.Keeps h where
  widgets _ hw := hw
  properties _ _ hp := hp
  logs := List.prefix_refl _
  alerts := List.prefix_refl _
  navigations := List.prefix_refl _
  pluginCalls := List.prefix_refl _
  clipboard hc := hc
  pending := .inl rfl
  make := .refl h

theorem trans {a b c : Host} (h : a.Keeps b) (h' : b.Keeps c) : a.Keeps c where
  widgets widget hw := h'.widgets widget (h.widgets widget hw)
  properties widget property hp := h'.properties widget property (h.properties widget property hp)
  logs := h.logs.trans h'.logs
  alerts := h.alerts.trans h'.alerts
  navigations := h.navigations.trans h'.navigations
  pluginCalls := h.pluginCalls.trans h'.pluginCalls
  clipboard hc := h'.clipboard (h.clipboard hc)
  pending := by
    rcases h'.pending with hbc | hbc
    · rw [hbc]
      exact h.pending
    · exact .inr hbc
  make := h.make.trans h'.make

theorem setProperty (h : Host) (widget property : String) (value : PropertyValue) :
    h.Keeps (h.setProperty widget property value) :=
  { refl h with
    widgets := fun x hx => Table.contains_insert.2 (.inr hx)
    properties := by
      intro x q hp
      rw [Host.property?_setProperty]
      split
      · rfl
      · exact hp
    make := ⟨rfl, rfl, rfl, rfl, rfl⟩ }

theorem log (h : Host) (level : Level) (message : String) : h.Keeps (h.log level message) := by
  unfold Host.log
  split
  · exact { refl h with logs := by simp, make := ⟨rfl, rfl, rfl, rfl, rfl⟩ }
  · exact refl h

theorem closeWindow (h : Host) (name : Option String) : h.Keeps (h.closeWindow name) := by
  obtain ⟨windows, hw⟩ := h.closeWindow_eq name
  rw [hw]
  exact { refl h with make := ⟨rfl, rfl, rfl, rfl, rfl⟩ }

theorem pump (h : Host) : h.Keeps h.pump.2 := by
  unfold Host.pump
  split
  · exact { refl h with pending := .inr rfl, make := ⟨rfl, rfl, rfl, rfl, rfl⟩ }
  · exact refl h

end Host.Keeps

namespace World.Keeps

theorem refl (w : World) : w.Keeps w := ⟨fun _ h => h, .refl w.host⟩

theorem trans {a b c : World} (h : a.Keeps b) (h' : b.Keeps c) : a.Keeps c :=
  ⟨fun name hn => h'.vars name (h.vars name hn), h.host.trans h'.host⟩

end World.Keeps

/-- Every effect keeps the variables; all that it can do to the store is to set one of them. -/
theorem perform_keeps_vars {w w' : World} {e : Effect} (h : w.perform e = .done w') {name : String}
    (hname : w.store.contains name = true) : w'.store.contains name = true := by
  rcases World.perform_store h with ⟨-, hstore⟩ | ⟨x, value, -, hstore⟩
  · rw [hstore]
    exact hname
  · rw [hstore]
    exact Table.contains_insert.2 (.inr hname)

/-- Every effect keeps the host. -/
theorem perform_keeps_host {w w' : World} {e : Effect} (h : w.perform e = .done w') :
    w.host.Keeps w'.host := by
  cases e with
  | nothing | assign name value | assignIdentifier name =>
    cases h
    exact .refl w.host
  | setProperty widget property value =>
    cases h
    exact .setProperty w.host widget property value
  | log level message =>
    cases h
    exact .log w.host level message
  | navigate target =>
    cases h
    exact { Host.Keeps.refl w.host with navigations := by simp, make := ⟨rfl, rfl, rfl, rfl, rfl⟩ }
  | openWindow name =>
    cases h
    exact { Host.Keeps.refl w.host with make := ⟨rfl, rfl, rfl, rfl, rfl⟩ }
  | closeWindow name =>
    cases h
    exact .closeWindow w.host name
  | setClipboard text =>
    cases h
    exact { Host.Keeps.refl w.host with
      clipboard := fun _ => rfl, make := ⟨rfl, rfl, rfl, rfl, rfl⟩ }
  | alert title message =>
    cases h
    exact { Host.Keeps.refl w.host with alerts := by simp, make := ⟨rfl, rfl, rfl, rfl, rfl⟩ }
  | plugin tag =>
    cases h
    exact { Host.Keeps.refl w.host with pluginCalls := by simp, make := ⟨rfl, rfl, rfl, rfl, rfl⟩ }
  | raise f => cases h

/-- Every effect keeps the world. -/
theorem perform_keeps {w w' : World} {e : Effect} (h : w.perform e = .done w') : w.Keeps w' :=
  ⟨fun _ => perform_keeps_vars h, perform_keeps_host h⟩

theorem keeps_invariant (w : World) : Invariant w.Keeps :=
  .of_perform (fun hw hp => hw.trans (perform_keeps hp))
    (fun {w'} hw => hw.trans ⟨fun _ hx => hx, .pump w'.host⟩) fun _ hw => ⟨hw.vars, hw.host⟩

/-- However a run or an invocation ends, the world that it leaves keeps the world that it started in.
    A session keeps its handlers and limits as well. -/
theorem runs_lose_nothing (sender : Option String) :
    (∀ p depth node w w', execute p depth sender node w = .done w' → w.Keeps w') ∧
    (∀ p depth node w f w', execute p depth sender node w = .fault f w' → w.Keeps w') ∧
    (∀ p depth name w outcome w', invoke p depth name sender w = some (outcome, w') → w.Keeps w') ∧
    (∀ (s : Session) node f s', s.execute node sender = some (f, s') →
      s'.program = s.program ∧ s.world.Keeps s'.world) ∧
    (∀ (s : Session) name outcome s', s.invoke name sender = some (outcome, s') →
      s'.program = s.program ∧ s.world.Keeps s'.world) := by
  have hexecute : ∀ p depth node w,
      (execute p depth sender node w).Meets w.Keeps (fun _ => True) True :=
    fun p depth node w => execute_keeps_invariant (keeps_invariant w) node (.refl w)
  refine ⟨fun p depth node w w' h => ?_, fun p depth node w f w' h => ?_,
    fun p depth name w outcome w' h => ?_, fun s node f s' h => ?_, fun s name outcome s' h => ?_⟩
  · have hmeets := hexecute p depth node w
    rw [h] at hmeets
    exact hmeets.world_done
  · have hmeets := hexecute p depth node w
    rw [h] at hmeets
    exact hmeets.of_fault.2
  · exact invoke_keeps_invariant (keeps_invariant w) (.refl w) h
  · have hmeets := hexecute s.program Session.depth node s.world
    unfold Session.execute at h
    split at h
    · rename_i w' heq
      rw [heq] at hmeets
      cases h
      exact ⟨rfl, hmeets.world_done⟩
    · rename_i f' w' heq
      rw [heq] at hmeets
      cases h
      exact ⟨rfl, hmeets.of_fault.2⟩
    · cases h
  · unfold Session.invoke at h
    obtain ⟨x, hx, heq⟩ := Option.map_eq_some_iff.1 h
    cases heq
    exact ⟨rfl, invoke_keeps_invariant (keeps_invariant s.world) (.refl s.world) hx⟩

/-- A session with a variable, a text on the clipboard and a pending event, whose one handler waits,
    writes to the log and faults. -/
def Session.interrupted : Session where
  program :=
    { registry := Registry.register {}
        ⟨"Go", [{ tag := "Delay" }, { tag := "Log", text := some "half way" }, { tag := "Throw" }]⟩ }
  world :=
    { store := Store.set {} "x" (.int 1)
      host := { clipboard := some "old", pending := [⟨"Missing", none⟩] } }

/-- A command that calls the handler `Go`. -/
def Node.goOn : Node := { tag := "Call", attributes := Table.ofList [("handler", "Go")] }

/-- The handler faults after it has taken the event and written to the log; still the variable and the
    text on the clipboard are there, the log has only grown, and the handlers are the same. -/
theorem runs_lose_nothing_interrupted :
    (∃ w', execute Session.interrupted.program 1 none { tag := "Delay" } Session.interrupted.world =
      .done w' ∧ Session.interrupted.world.Keeps w') ∧
    (∃ f w', execute Session.interrupted.program 2 none .goOn Session.interrupted.world =
      .fault f w' ∧ Session.interrupted.world.Keeps w') ∧
    (∃ w', invoke Session.interrupted.program 1 "Go" none Session.interrupted.world =
      some (.faulted "Error", w') ∧ Session.interrupted.world.Keeps w') ∧
    (∃ f s', Session.interrupted.execute .goOn none = some (some f, s') ∧
      s'.program = Session.interrupted.program ∧ Session.interrupted.world.Keeps s'.world) ∧
    ∃ s', Session.interrupted.invoke "Go" none = some (.faulted "Error", s') ∧
      s'.program = Session.interrupted.program ∧ Session.interrupted.world.Keeps s'.world := by
  obtain ⟨hdone, hfault, hinvoke, hexecute, hsession⟩ := runs_lose_nothing none
  refine ⟨⟨_, rfl, ?_⟩, ⟨_, _, rfl, ?_⟩, ⟨_, rfl, ?_⟩, ⟨_, _, rfl, ?_⟩, ⟨_, rfl, ?_⟩⟩
  · exact hdone Session.interrupted.program 1 { tag := "Delay" } _ _ rfl
  · exact hfault Session.interrupted.program 2 .goOn _ _ _ rfl
  · exact hinvoke Session.interrupted.program 1 "Go" _ _ _ rfl
  · exact hexecute .interrupted .goOn _ _ rfl
  · exact hsession .interrupted "Go" _ _ rfl

end HandlerScript
