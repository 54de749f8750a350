import HandlerScript.Proofs.Effect.Choice
import HandlerScript.Proofs.Run.Host
import HandlerScript.Proofs.Table

/-! Where faults come from.

    A fault that ends a run was raised by a `Throw` in the program, or it repeats an entry of the
    table of failures of the host, for one of the operations of the host or for a command that the
    host adds. Nothing else faults: malformed texts and missing variables, widgets and handlers never
    do. So a program without `Throw` on a host without failures always completes. -/

namespace HandlerScript

/-- The node occurs in the body of a registered handler. -/
def Registry.Holds (r : Registry) (n : Node) : Prop :=
  ∃ name h, r.get? name = some h ∧ ∃ b ∈ h.body, n.Within b

/-- The nodes that a command can lead to: those of its own tree and those of the handlers. -/
def Program.Reaches (p : Program) (root n : Node) : Prop :=
  n.Within root ∨ p.registry.Holds n

/-- A fault has an origin among some nodes and the failures of a host. -/
inductive Fault.Origin (S : Node → Prop) (host : Host) : Fault → Prop
  | thrown {n : Node} {message : String} : S n → n.hasTag "Throw" = true →
      Origin S host (.raised message)
  | refused {op : Operation} {message : String} : host.failures.get? op.name = some message →
      Origin S host (.host op message)
  | plugin {tag message : String} : tag ∈ host.commands → host.failures.get? tag = some message →
      Origin S host (.plugin tag message)

theorem Registry.closed_holds (p : Program) : p.Closed p.registry.Holds where
  below := by
    rintro n c ⟨name, h, hh, b, hb, hn⟩ hc
    exact ⟨name, h, hh, b, hb, hc.within.trans hn⟩
  body hh hc := ⟨_, _, hh, _, hc, Node.within_self _⟩

theorem Program.closed_reaches (p : Program) (root : Node) : p.Closed (p.Reaches root) where
  below hn hc := by
    rcases hn with hn | hn
    · exact .inl (hc.within.trans hn)
    · exact .inr ((Registry.closed_holds p).below hn hc)
  body hh hc := .inr ((Registry.closed_holds p).body hh hc)

theorem Node.hasTag_throw {node : Node} (h : Command.ofTag node.tag = .throw) :
    node.hasTag "Throw" = true := by
  rw [hasTag, Text.sameLetters_iff, Command.lower_of_ofTag h Command.noConfusion]
  rfl

/-- A host that offers all operations refuses one only by its table of failures. -/
theorem Host.refusal?_full {h : Host} (hfull : h.reach = .full) (op : Operation) (subject : String) :
    h.refusal? op subject = h.failures.get? op.name := by
  rw [refusal?, hfull]

theorem Host.mem_of_addsCommand {h : Host} {tag : String} (hadds : h.addsCommand tag = true) :
    tag ∈ h.commands := by
  unfold addsCommand at hadds
  split at hadds
  · simpa using hadds
  · simp at hadds

section Origins

variable {p : Program} {S : Node → Prop} {host : Host}

/-- The effect of a node of `S`, on a host of the same make, raises faults with an origin only. -/
theorem effect_raises_origin (hfull : host.reach = .full) {node : Node} (hn : S node)
    {sender : Option String} {w : World} (hw : host.SameMake w.host) (moment : Moment) :
    ((Command.ofTag node.tag).effect moment (w.scope sender) node).RaisesOnly
      (Fault.Origin S host) := by
  refine Command.raisesOnly_effect moment _ (fun hc _ => .thrown hn (Node.hasTag_throw hc)) ?_ ?_
  · intro op subject message hm
    have hhost : (w.scope sender).host = w.host := rfl
    rw [hhost, Host.refusal?_full (hw.reach.trans hfull), hw.failures] at hm
    exact .refused hm
  · intro _ message hadds hm
    have hmem : node.tag ∈ w.host.commands := Host.mem_of_addsCommand hadds
    have hfail : w.host.failures.get? node.tag = some message := hm
    rw [hw.commands] at hmem
    rw [hw.failures] at hfail
    exact .plugin hmem hfail

/-- A run through nodes of `S` keeps the make of the host and ends in faults with an origin only. -/
theorem execute_meets_origin (hS : p.Closed S) (hfull : host.reach = .full) (depth : Nat)
    (sender : Option String) {node : Node} (hn : S node) {w : World} (hw : host.SameMake w.host) :
    (execute p depth sender node w).Meets (fun w => host.SameMake w.host) (Fault.Origin S host)
      True :=
  execute_meets hS (sameMake_invariant host) (fun _ _ _ _ _ _ _ => trivial)
    (fun _ _ _ moment f hn hw hf => effect_raises_origin hfull hn hw moment f hf) depth hn hw

/-- An invocation that ends in a fault has met one with an origin in the handlers. -/
theorem invoke_faulted {depth : Nat} {name message : String} {sender : Option String} {w w' : World}
    (hfull : w.host.reach = .full)
    (h : invoke p depth name sender w = some (.faulted message, w')) :
    ∃ f, Fault.Origin p.registry.Holds w.host f ∧ f.display = message := by
  unfold invoke invokeWith at h
  split at h
  · cases h
  · rename_i handler hh
    have hrun : (runAll (execute p depth sender) handler.body w).Meets
        (fun w' => w.host.SameMake w'.host) (Fault.Origin p.registry.Holds w.host) True :=
      runAll_meets (fun c hc w' hw' => execute_meets_origin (Registry.closed_holds p) hfull depth
        sender ((Registry.closed_holds p).body hh hc) hw') (.refl w.host)
    split at h
    · cases h
    · rename_i f w₁ heq
      cases h
      rw [heq] at hrun
      exact ⟨f, hrun.of_fault.1, rfl⟩
    · cases h

/-- Without failures and without a `Throw` there is no origin for a fault. -/
theorem Fault.not_origin (hfail : host.failures = ∅) (hS : ∀ n, S n → n.hasTag "Throw" = false)
    (f : Fault) : ¬ f.Origin S host := by
  intro h
  cases h with
  | thrown hn ht =>
    rw [hS _ hn] at ht
    cases ht
  | refused hm =>
    rw [hfail] at hm
    cases hm
  | plugin _ hm =>
    rw [hfail] at hm
    cases hm

end Origins

/-- Every fault that ends a run on a host of all operations has an origin: a `Throw` in the tree or in
    a handler, or an entry of the table of failures for the operation or the added command that it
    names. Without either, every run that ends completes, and so does every invocation of a handler
    that there is. -/
theorem fault_has_origin (p : Program) (sender : Option String) (node : Node) (w : World)
    (hfull : w.host.reach = .full) :
    (∀ depth f w', execute p depth sender node w = .fault f w' →
      f.Origin (p.Reaches node) w.host) ∧
    (w.host.failures = ∅ → (∀ n, p.registry.Holds n → n.hasTag "Throw" = false) →
      ((∀ n : Node, n.Within node → n.hasTag "Throw" = false) →
        ∀ depth, execute p depth sender node w ≠ .tooDeep →
          ∃ w', execute p depth sender node w = .done w') ∧
      ∀ name depth outcome w', invoke p depth name sender w = some (outcome, w') →
        outcome = .completed ∨ outcome = .unknownHandler) := by
  have horigin : ∀ depth f w', execute p depth sender node w = .fault f w' →
      f.Origin (p.Reaches node) w.host := by
    intro depth f w' h
    have hmeets := execute_meets_origin (p.closed_reaches node) hfull depth sender
      (.inl (Node.within_self node)) (.refl w.host)
    rw [h] at hmeets
    exact hmeets.of_fault.1
  refine ⟨horigin, fun hfail hregistry => ⟨fun htree depth hdeep => ?_, ?_⟩⟩
  · cases h : execute p depth sender node w with
    | done w' => exact ⟨w', rfl⟩
    | fault f w' =>
      refine absurd (horigin depth f w' h) (Fault.not_origin hfail ?_ f)
      rintro n (hn | hn)
      · exact htree n hn
      · exact hregistry n hn
    | tooDeep => exact absurd h hdeep
  · intro name depth outcome w' h
    cases outcome with
    | completed => exact .inl rfl
    | unknownHandler => exact .inr rfl
    | faulted message =>
      obtain ⟨f, hf, -⟩ := invoke_faulted hfull h
      exact absurd hf (Fault.not_origin hfail hregistry f)

/-- A program with one handler, which navigates. -/
def Program.homeward : Program :=
  { registry := Registry.register {}
      ⟨"Go", [{ tag := "Navigate", attributes := Table.ofList [("to", "Home")] }]⟩ }

/-- A call of the handler `Go`. -/
def Node.callGo : Node := { tag := "call", attributes := Table.ofList [("handler", " Go ")] }

theorem homeward_holds {n : Node} (h : Program.homeward.registry.Holds n) :
    n.hasTag "Throw" = false := by
  obtain ⟨name, h, hh, b, hb, hn⟩ := h
  cases List.mem_singleton.1 (Table.mem_of_get? hh)
  obtain rfl := List.mem_singleton.1 hb
  rw [Node.within_leaf rfl hn]
  decide +kernel

/-- A world whose host fails to navigate. -/
def World.astray : World := { host := { failures := Table.ofList [("navigate", "no route")] } }

/-- A call of a handler that navigates faults where the host fails to navigate, with the entry of the
    table for its origin; it completes where the host does not fail, and so does the handler. -/
theorem fault_has_origin_navigate :
    (execute .homeward 2 none .callGo .astray = .fault (.host .navigate "no route") .astray ∧
      (Fault.host .navigate "no route").Origin (Program.homeward.Reaches .callGo)
        World.astray.host) ∧
    (∃ w', execute .homeward 2 none .callGo {} = .done w') ∧
    ∀ outcome w', invoke .homeward 1 "Go" none {} = some (outcome, w') →
      outcome = .completed ∨ outcome = .unknownHandler := by
  have hrun : execute .homeward 2 none .callGo .astray =
      .fault (.host .navigate "no route") .astray := by rfl
  have hquiet := (fault_has_origin .homeward none .callGo {} rfl).2 rfl fun _ => homeward_holds
  refine ⟨⟨hrun, (fault_has_origin .homeward none .callGo .astray rfl).1 2 _ _ hrun⟩, ?_, ?_⟩
  · refine hquiet.1 (fun n hn => ?_) 2 Run.noConfusion
    rw [Node.within_leaf rfl hn]
    decide +kernel
  · exact hquiet.2 "Go" 1

end HandlerScript
