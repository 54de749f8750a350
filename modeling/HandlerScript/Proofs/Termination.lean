import HandlerScript.Proofs.Run.Depth
import HandlerScript.Proofs.Run.Host
import HandlerScript.Proofs.Table
import HandlerScript.Proofs.Template

/-! Programs whose handlers do not call each other in a circle end.

    A registry is ranked if every call in the body of a handler names, without references, a handler
    of a smaller rank or none that is registered. Under such a registry each command has a depth that
    is enough for it in every world: loops are bounded by themselves, so only the nesting of commands
    and calls counts.

    The one thing that the rank does not bound is a delay, which lets in events of any rank. But taking
    the events empties the queue and nothing fills it again. So the argument runs twice: first over
    worlds without events to take, where a delay runs no handlers; then over all worlds, where a delay
    runs its handlers in worlds of the first kind. -/

namespace HandlerScript

/-! ### Ranked calls -/

/-- Every call in a tree names its handler without references, and the name is one that `ok`
    allows. -/
def Node.CallsOnly (ok : String → Prop) (root : Node) : Prop :=
  ∀ n : Node, n.Within root → n.hasTag "Call" = true →
    ∀ text, n.attrOf? ["handler", "name"] = some text → '\x7b' ∉ text.toList ∧ ok (Text.trim text)

/-- Handlers call handlers of smaller rank only, besides names that are not registered. -/
def Registry.Ranked (r : Registry) (rank : String → Nat) : Prop :=
  ∀ name h, r.get? name = some h → ∀ b ∈ h.body,
    b.CallsOnly fun callee => r.get? callee = none ∨ rank callee < rank name

namespace Node

theorem CallsOnly.within {ok : String → Prop} {n root : Node} (h : root.CallsOnly ok)
    (hn : n.Within root) : n.CallsOnly ok :=
  fun m hm => h m (hm.trans hn)

theorem CallsOnly.mono {ok ok' : String → Prop} {root : Node} (h : root.CallsOnly ok)
    (hok : ∀ name, ok name → ok' name) : root.CallsOnly ok' := by
  intro n hn htag text htext
  obtain ⟨hplain, hname⟩ := h n hn htag text htext
  exact ⟨hplain, hok _ hname⟩

theorem hasTag_call {node : Node} (h : Command.ofTag node.tag = .call) :
    node.hasTag "Call" = true := by
  rw [hasTag, Text.sameLetters_iff, Command.lower_of_ofTag h Command.noConfusion]
  rfl

end Node

/-! ### Depths that are enough -/

/-- If each member of a list has a depth from which on something holds, one depth does for all. -/
theorem exists_depth_forall_mem {α : Type} {Q : Nat → α → Prop} : ∀ {l : List α},
    (∀ x ∈ l, ∃ n, ∀ d, n ≤ d → Q d x) → ∃ n, ∀ d, n ≤ d → ∀ x ∈ l, Q d x
  | [], _ => ⟨0, fun _ _ _ hx => nomatch hx⟩
  | x :: l, h => by
    obtain ⟨n, hn⟩ := h x List.mem_cons_self
    obtain ⟨m, hm⟩ := exists_depth_forall_mem fun y hy => h y (List.mem_cons_of_mem _ hy)
    refine ⟨max n m, fun d hd y hy => ?_⟩
    rcases List.mem_cons.1 hy with rfl | hy
    · exact hn d (by omega)
    · exact hm d (by omega) y hy

/-- A command ends at a depth, in every world of `I` and for every sender, in a world of `I`. -/
def EndsAt (p : Program) (I : World → Prop) (depth : Nat) (n : Node) : Prop :=
  ∀ sender w, I w → (execute p depth sender n w).Meets I (fun _ => True) False

theorem EndsAt.ne_tooDeep {p : Program} {I : World → Prop} {depth : Nat} {n : Node}
    (h : EndsAt p I depth n) {sender : Option String} {w : World} (hw : I w) :
    execute p depth sender n w ≠ .tooDeep := by
  intro hdeep
  have hmeets := h sender w hw
  rw [hdeep] at hmeets
  exact hmeets.of_tooDeep

/-- From some depth on, all commands of a tree end in every world of `I`. -/
def Settles (p : Program) (I : World → Prop) (root : Node) : Prop :=
  ∃ depth, ∀ d, depth ≤ d → ∀ n : Node, n.Within root → EndsAt p I d n

/-- From some depth on, the handlers of all events that a world of `I` can have pending end in every
    world without events. -/
def EventsSettle (p : Program) (I : World → Prop) : Prop :=
  ∃ depth, ∀ d, depth ≤ d → ∀ w, I w →
    HandlersMeet World.Quiet False p.registry (execute p d) w.host.pump.1

section Settling

variable {p : Program} {I : World → Prop}

/-- If the bodies of some handler settle, one depth does for all of them. -/
theorem exists_depth_body {h : Handler} (hbody : ∀ b ∈ h.body, Settles p I b) :
    ∃ depth, ∀ d, depth ≤ d → ∀ b ∈ h.body, EndsAt p I d b := by
  obtain ⟨depth, hdepth⟩ := exists_depth_forall_mem hbody
  exact ⟨depth, fun d hd b hb => hdepth d hd b hb b (Node.within_self b)⟩

/-- The handlers that a name stands for, if any, have settled bodies. -/
def CalleeSettles (p : Program) (I : World → Prop) (name : String) : Prop :=
  ∀ h, p.registry.get? name = some h → ∀ b ∈ h.body, Settles p I b

/-- The depth that a call needs for the handler that it names. -/
theorem exists_depth_callee {node : Node} (hcalls : node.CallsOnly (CalleeSettles p I))
    (hc : Command.ofTag node.tag = .call) :
    ∃ depth, ∀ d, depth ≤ d → ∀ s : Scope, ∀ text h,
      s.attrOf? node ["handler", "name"] = some text →
      p.registry.get? (Text.trim text) = some h → ∀ b ∈ h.body, EndsAt p I d b := by
  have hnode := hcalls node (Node.within_self node) (Node.hasTag_call hc)
  have hplain : ∀ s : Scope,
      s.attrOf? node ["handler", "name"] = node.attrOf? ["handler", "name"] :=
    fun s => s.attrOf?_plain fun text htext => (hnode text htext).1
  cases htext : node.attrOf? ["handler", "name"] with
  | none => exact ⟨0, fun d _ s text h hs => by rw [hplain, htext] at hs; cases hs⟩
  | some text =>
    have hcallee := (hnode text htext).2
    cases hget : p.registry.get? (Text.trim text) with
    | none =>
      refine ⟨0, fun d _ s text' h hs hh => ?_⟩
      rw [hplain, htext] at hs
      cases hs
      rw [hget] at hh
      cases hh
    | some h =>
      obtain ⟨depth, hdepth⟩ := exists_depth_body (hcallee h hget)
      refine ⟨depth, fun d hd s text' h' hs hh => ?_⟩
      rw [hplain, htext] at hs
      cases hs
      rw [hget] at hh
      cases hh
      exact hdepth d hd

variable (hI : Invariant I) (hquiet : ∀ w : World, w.Quiet → I w) (hevents : EventsSettle p I)

include hI hquiet hevents

/-- A tree settles if the handlers that its calls name do. -/
theorem settles_of_calls : ∀ root : Node, root.CallsOnly (CalleeSettles p I) → Settles p I root := by
  -- the depth of a node is one more than what its children, its callee and the events need
  refine Node.induction_children fun root ih hcalls => ?_
  obtain ⟨n₁, hchildren⟩ := exists_depth_forall_mem fun c hc =>
    ih c hc (hcalls.within (Node.below_of_mem hc).within)
  obtain ⟨n₂, hevent⟩ := hevents
  obtain ⟨n₃, hcallee⟩ : ∃ depth, ∀ d, depth ≤ d → Command.ofTag root.tag = .call →
      ∀ s : Scope, ∀ text h, s.attrOf? root ["handler", "name"] = some text →
      p.registry.get? (Text.trim text) = some h → ∀ b ∈ h.body, EndsAt p I d b := by
    by_cases hc : Command.ofTag root.tag = .call
    · obtain ⟨depth, hdepth⟩ := exists_depth_callee hcalls hc
      exact ⟨depth, fun d hd _ => hdepth d hd⟩
    · exact ⟨0, fun _ _ h => absurd h hc⟩
  refine ⟨max n₁ (max n₂ n₃) + 1, fun d hd n hn => ?_⟩
  have hbelow : ∀ d, n₁ ≤ d → ∀ c : Node, c.Below root → EndsAt p I d c := by
    intro d hd c hc
    obtain ⟨m, hm, hcm⟩ := Node.below_iff.1 hc
    exact hchildren d hd m hm c hcm
  rcases Node.within_iff.1 hn with rfl | hn
  · obtain ⟨d, rfl⟩ : ∃ e, d = e + 1 := ⟨d - 1, by omega⟩
    intro sender w hw
    refine step_meets hI quiet_invariant hquiet (fun w _ => quiet_pumped w)
      (fun _ _ => trivial) (fun _ _ _ => trivial) (fun c hc => hbelow d (by omega) c hc sender)
      (fun hc w text h hw htext hh b hb => ?_) (hevent d (by omega)) hw
    exact hcallee d (by omega) hc (w.scope sender) text h htext hh b hb sender
  · exact hbelow d (by omega) n hn

/-- The handlers of a ranked registry settle, by induction on their rank. -/
theorem settles_of_ranked {rank : String → Nat} (hrank : p.registry.Ranked rank) (name : String) :
    CalleeSettles p I name := by
  induction hn : rank name using Nat.strongRecOn generalizing name with
  | ind n ih =>
    intro h hh b hb
    refine settles_of_calls hI hquiet hevents b ((hrank name h hh b hb).mono fun callee hcallee => ?_)
    rcases hcallee with hnone | hlt
    · intro h' hh'
      rw [hnone] at hh'
      cases hh'
    · exact ih (rank callee) (hn ▸ hlt) callee rfl

end Settling

/-- If all handlers settle, one depth does for all of them. -/
theorem exists_depth_handlers {p : Program} {I : World → Prop}
    (h : ∀ name, CalleeSettles p I name) :
    ∃ depth, ∀ d, depth ≤ d → ∀ name h, p.registry.get? name = some h →
      ∀ b ∈ h.body, EndsAt p I d b := by
  -- entries are registered as they stand in the table, which holds each name once
  obtain ⟨depth, hdepth⟩ : ∃ depth, ∀ d, depth ≤ d → ∀ e ∈ p.registry.handlers.entries,
      p.registry.get? e.1 = some e.2 → ∀ b ∈ e.2.body, EndsAt p I d b := by
    refine exists_depth_forall_mem fun e _ => ?_
    by_cases hget : p.registry.get? e.1 = some e.2
    · obtain ⟨depth, hdepth⟩ := exists_depth_body (h e.1 e.2 hget)
      exact ⟨depth, fun d hd _ => hdepth d hd⟩
    · exact ⟨0, fun _ _ h => absurd h hget⟩
  exact ⟨depth, fun d hd name h hh => hdepth d hd (name, h) (Table.mem_of_get? hh) hh⟩

theorem true_invariant : Invariant fun _ => True :=
  .of_perform (fun _ _ => trivial) (fun _ => trivial) fun _ _ => trivial

section Ranked

variable {p : Program} {rank : String → Nat}

/-- In worlds without events to take there are no handlers of events to wait for. -/
theorem eventsSettle_quiet (p : Program) : EventsSettle p World.Quiet := by
  refine ⟨0, fun d _ w hw e he => ?_⟩
  rw [hw] at he
  cases he

/-- Under a ranked registry the handlers of all events end, since they run without further events. -/
theorem eventsSettle (hrank : p.registry.Ranked rank) : EventsSettle p fun _ => True := by
  obtain ⟨depth, hdepth⟩ := exists_depth_handlers
    (settles_of_ranked quiet_invariant (fun _ h => h) (eventsSettle_quiet p) hrank)
  exact ⟨depth, fun d hd w _ e _ h hh b hb w' hw' => hdepth d hd e.handler h hh b hb e.sender w' hw'⟩

end Ranked

/-- A handler that waits, and one that calls it. -/
def Registry.ticking : Registry := Registry.registerAll {}
  [⟨"Tick", [{ tag := "Delay", attributes := Table.ofList [("ms", "5")] }]⟩,
    ⟨"Main", [{ tag := "Call", attributes := Table.ofList [("handler", " Tick ")] }]⟩]

theorem ticking_entries : Registry.ticking.handlers.entries =
    [("Main", ⟨"Main", [{ tag := "Call", attributes := Table.ofList [("handler", " Tick ")] }]⟩),
      ("Tick", ⟨"Tick", [{ tag := "Delay", attributes := Table.ofList [("ms", "5")] }]⟩)] := by
  rfl

/-- The waiting handler ranks below the one that calls it. -/
theorem ticking_ranked :
    Registry.ticking.Ranked fun name => if name = "Main" then 1 else 0 := by
  intro name h hh b hb n hn htag text htext
  have hmem := Table.mem_of_get? hh
  rw [ticking_entries] at hmem
  rcases List.mem_cons.1 hmem with heq | hmem
  · cases heq
    obtain rfl := List.mem_singleton.1 hb
    rw [Node.within_leaf rfl hn] at htext
    have : text = " Tick " := by
      have hattr : Node.attrOf? { tag := "Call", attributes := Table.ofList [("handler", " Tick ")] }
          ["handler", "name"] = some " Tick " := rfl
      rw [hattr] at htext
      exact (Option.some.inj htext).symm
    subst this
    exact ⟨by decide +kernel, .inr (by decide +kernel)⟩
  · cases List.mem_singleton.1 hmem
    obtain rfl := List.mem_singleton.1 hb
    rw [Node.within_leaf rfl hn] at htag
    exact absurd htag (by decide +kernel)

/-- A loop around a call of the handler that calls the waiting one. -/
def Node.busy : Node :=
  { tag := "While", attributes := Table.ofList [("condition", "true")]
    children := [{ tag := "Call", attributes := Table.ofList [("handler", "Main")] }] }

theorem busy_callsOnly : Node.busy.CallsOnly fun _ => True := by
  intro n hn htag text htext
  refine ⟨?_, trivial⟩
  rcases Node.within_iff.1 hn with rfl | hn
  · exact absurd htag (by decide +kernel)
  · obtain ⟨m, hm, hn⟩ := Node.below_iff.1 hn
    obtain rfl := List.mem_singleton.1 hm
    rw [Node.within_leaf rfl hn] at htext
    have hattr : Node.attrOf? { tag := "Call", attributes := Table.ofList [("handler", "Main")] }
        ["handler", "name"] = some "Main" := rfl
    rw [hattr] at htext
    cases htext
    decide +kernel

end HandlerScript
