import HandlerScript.Proofs.Node.Within
import HandlerScript.Proofs.Run.Step

/-! What holds after a run.

    `r.Meets I F D` says of a run that the world it leaves satisfies `I`, that a fault it ends in
    satisfies `F`, and that it runs out of depth only if `D`. With `D` false the run must end; with `D`
    true only runs that end are spoken of. There is one rule for each way of putting runs together,
    and `step_meets` joins them: it says once, for all commands, what a command does to the world
    itself, which nodes it hands on, and where its faults come from. -/

namespace HandlerScript

namespace Run

/-- The run leaves a world in `I`, ends in faults of `F` only, and is too deep only if `D`. -/
inductive Meets (I : World → Prop) (F : Fault → Prop) (D : Prop) : Run → Prop
  | done {w : World} : I w → Meets I F D (.done w)
  | fault {f : Fault} {w : World} : F f → I w → Meets I F D (.fault f w)
  | tooDeep : D → Meets I F D .tooDeep

/-- The world that a run leaves, however it ends. -/
def world? : Run → Option World
  | .done w => some w
  | .fault _ w => some w
  | .tooDeep => none

namespace Meets

variable {I J : World → Prop} {F G : Fault → Prop} {D : Prop} {r : Run}

theorem mono (h : r.Meets I F D) (hI : ∀ w, I w → J w) (hF : ∀ f, F f → G f) : r.Meets J G D := by
  cases h with
  | done hw => exact done (hI _ hw)
  | fault hf hw => exact fault (hF _ hf) (hI _ hw)
  | tooDeep hd => exact tooDeep hd

theorem andThen {next : World → Run} (h : r.Meets I F D)
    (hnext : ∀ w, I w → (next w).Meets I F D) : (r.andThen next).Meets I F D := by
  cases h with
  | done hw => exact hnext _ hw
  | fault hf hw => exact fault hf hw
  | tooDeep hd => exact tooDeep hd

theorem world_done {w : World} (h : (Run.done w).Meets I F D) : I w := by
  cases h with
  | done hw => exact hw

theorem of_fault {f : Fault} {w : World} (h : (Run.fault f w).Meets I F D) : F f ∧ I w := by
  cases h with
  | fault hf hw => exact ⟨hf, hw⟩

theorem of_world? {w : World} (h : r.Meets I F D) (hw : r.world? = some w) : I w := by
  cases h with
  | done hI =>
    cases hw
    exact hI
  | fault _ hI =>
    cases hw
    exact hI
  | tooDeep _ => cases hw

theorem of_tooDeep (h : Run.tooDeep.Meets I F D) : D := by
  cases h with
  | tooDeep hd => exact hd

end Meets

end Run

/-- A property of worlds that running keeps as long as the effects that commands perform are those of
    `E`. Besides performing effects, running writes to the log, takes the pending events of the host
    and lets time pass. -/
structure Stable (E : Effect → Prop) (I : World → Prop) : Prop where
  perform : ∀ {w w' e}, E e → I w → w.perform e = .done w' → I w'
  log : ∀ {w} (level : Level) (message : String), I w → I (w.log level message)
  pump : ∀ {w}, I w → I { w with host := w.host.pump.2 }
  wait : ∀ {w} (ms : Nat), I w → I { w with elapsed := w.elapsed + ms }

/-- A property of worlds that commands keep, whatever effects they have. -/
abbrev Invariant (I : World → Prop) : Prop := Stable (fun _ => True) I

namespace Stable

variable {E : Effect → Prop} {I : World → Prop}

/-- What every effect keeps is kept by writing to the log, which is one of them. -/
theorem of_perform (perform : ∀ {w w' e}, I w → w.perform e = .done w' → I w')
    (pump : ∀ {w}, I w → I { w with host := w.host.pump.2 })
    (wait : ∀ {w} (ms : Nat), I w → I { w with elapsed := w.elapsed + ms }) : Invariant I where
  perform _ hw hp := perform hw hp
  log level message hw := perform (e := .log level message) hw rfl
  pump := pump
  wait := wait

theorem set (hI : Stable E I) {w : World} {name : String} {value : Scalar}
    (he : E (.assign name value)) (h : I w) : I (w.set name value) :=
  hI.perform he h rfl

end Stable

/-! ### The effects of a command's own -/

/-- The variable that a `ForEach` puts its items into. -/
def Scope.itemName (s : Scope) (node : Node) : String := (s.attrOf? node ["item", "var"]).getD "item"

/-- The variable that a `ForEach` puts the number of its round into. -/
def Scope.indexName (s : Scope) (node : Node) : String := (s.attr? node "index").getD "index"

/-- The effects that a command itself has when it starts in a scope, apart from writing to the log:
    the one that it settles on, and the assignments of loops and guarded blocks. -/
inductive Node.Causes (limits : Limits) (s : Scope) (node : Node) : Effect → Prop
  | effect (moment : Moment) : Causes limits s node ((Command.ofTag node.tag).effect moment s node)
  | item (value : Scalar) : Command.ofTag node.tag = .forEach →
      Causes limits s node (.assign (s.itemName node) value)
  | index (value : Scalar) : Command.ofTag node.tag = .forEach →
      Causes limits s node (.assign (s.indexName node) value)
  | caught (value : Scalar) : Command.ofTag node.tag = .tryCatch →
      Causes limits s node (.assign (errorVariable limits s node) value)

section Rules

variable {E : Effect → Prop} {I J : World → Prop} {F : Fault → Prop} {D : Prop}

/-! ### Sequences and loops -/

theorem runAll_meets {run : Node → World → Run} : ∀ {ns : List Node},
    (∀ n ∈ ns, ∀ w, I w → (run n w).Meets I F D) → ∀ {w}, I w → (runAll run ns w).Meets I F D
  | [], _, _, hw => .done hw
  | n :: _, h, w, hw =>
    (h n List.mem_cons_self w hw).andThen fun _ hw' =>
      runAll_meets (fun m hm => h m (List.mem_cons_of_mem _ hm)) hw'

theorem repeatWhile_meets {holds : World → Bool} {stopped : World → World} {body : World → Run}
    (hstop : ∀ w, I w → I (stopped w)) (hbody : ∀ w, I w → (body w).Meets I F D) :
    ∀ n {w}, I w → (repeatWhile holds stopped body n w).Meets I F D
  | 0, w, hw => by
    unfold repeatWhile
    split
    · exact .done (hstop w hw)
    · exact .done hw
  | n + 1, w, hw => by
    unfold repeatWhile
    split
    · exact (hbody w hw).andThen fun _ hw' => repeatWhile_meets hstop hbody n hw'
    · exact .done hw

theorem forCount_meets {body : Nat → World → Run} (hbody : ∀ i w, I w → (body i w).Meets I F D) :
    ∀ n i {w}, I w → (forCount body n i w).Meets I F D
  | 0, _, _, hw => .done hw
  | n + 1, i, w, hw => (hbody i w hw).andThen fun _ hw' => forCount_meets hbody n (i + 1) hw'

theorem forItems_meets {body : Nat → String → World → Run}
    (hbody : ∀ i t w, I w → (body i t w).Meets I F D) :
    ∀ i ts {w}, I w → (forItems body i ts w).Meets I F D
  | _, [], _, hw => .done hw
  | i, t :: ts, w, hw => (hbody i t w hw).andThen fun _ hw' => forItems_meets hbody (i + 1) ts hw'

/-- A list of nodes below `node`, run by `all`, keeps to the postcondition. -/
def BodiesMeet (I : World → Prop) (F : Fault → Prop) (D : Prop) (node : Node)
    (all : List Node → World → Run) : Prop :=
  ∀ ns, (∀ c ∈ ns, c.Below node) → ∀ w, I w → (all ns w).Meets I F D

variable {all : List Node → World → Run} {node : Node} {w : World}

theorem forEach_meets (hI : Stable E I) (hall : BodiesMeet I F D node all) {s : Scope}
    (hitem : ∀ value, E (.assign (s.itemName node) value))
    (hindex : ∀ value, E (.assign (s.indexName node) value)) (hw : I w) :
    (forEach s all node w).Meets I F D := by
  have round : ∀ (a b : Scalar) w, I w →
      (all node.children ((w.set (s.indexName node) a).set (s.itemName node) b)).Meets I F D := by
    intro a b w hw
    exact hall _ (fun c hc => Node.below_of_mem hc) _ (hI.set (hitem b) (hI.set (hindex a) hw))
  unfold forEach
  dsimp only
  split
  · exact forCount_meets (fun i w hw => round _ _ w hw) _ _ hw
  · exact forItems_meets (fun i t w hw => round _ _ w hw) _ _ hw

theorem whileLoop_meets (hI : Stable E I) (hall : BodiesMeet I F D node all) (limits : Limits)
    (sender : Option String) (hw : I w) : (whileLoop limits sender all node w).Meets I F D :=
  repeatWhile_meets (fun _ hw => hI.log _ _ hw)
    (fun w hw => hall _ (fun _ hc => Node.below_of_mem hc) w hw) _ hw

/-! ### Guarded blocks -/

theorem withFinally_meets {last : List Node} {r : Run}
    (hlast : ∀ w, I w → (all last w).Meets I F D) (hr : r.Meets I F D) :
    (withFinally all last r).Meets I F D := by
  cases hr with
  | done hw => exact hlast _ hw
  | fault hf hw => exact (hlast _ hw).andThen fun _ hw' => .fault hf hw'
  | tooDeep hd => exact .tooDeep hd

theorem tryCatch_meets (hI : Stable E I) (hall : BodiesMeet I F D node all) {limits : Limits}
    {s : Scope} (hcaught : ∀ value, E (.assign (errorVariable limits s node) value)) (hw : I w) :
    (tryCatch limits s all node w).Meets I F D := by
  have htry := hall (tryBody node) (fun _ => below_of_mem_tryBody) w hw
  unfold tryCatch
  refine withFinally_meets (hall _ fun _ => below_of_mem_bodyOf) ?_
  split
  · rename_i f w' heq
    rw [heq] at htry
    exact hall _ (fun _ => below_of_mem_bodyOf) _
      (hI.set (hcaught _) (hI.log _ _ htry.of_fault.2))
  · exact htry

/-! ### Other handlers -/

theorem call_meets (hI : Stable E I) {registry : Registry} {s : Scope} (hw : I w)
    (hcallee : ∀ text h, s.attrOf? node ["handler", "name"] = some text →
      registry.get? (Text.trim text) = some h → (all h.body w).Meets I F D) :
    (call registry s all node w).Meets I F D := by
  unfold call
  split
  · exact .done hw
  · rename_i text htext
    dsimp only
    split
    · rename_i h hh
      exact hcallee text h htext hh
    · exact .done (hI.log _ _ hw)

/-- What holds after an invocation; it has no faults of its own. -/
theorem invokeWith_meets (hI : Stable E I) {registry : Registry} {run : Runner} {name : String}
    {sender : Option String}
    (hbody : ∀ h, registry.get? name = some h → (runAll (run sender) h.body w).Meets I F D)
    (hw : I w) :
    (∀ x, invokeWith registry run name sender w = some x → I x.2) ∧
      (invokeWith registry run name sender w = none → D) := by
  unfold invokeWith
  cases hget : registry.get? name with
  | none => exact ⟨fun x hx => by cases hx; exact hI.log _ _ hw, fun h => by cases h⟩
  | some h =>
    have hrun := hbody h hget
    dsimp only
    cases hr : runAll (run sender) h.body w with
    | done w' =>
      rw [hr] at hrun
      exact ⟨fun x hx => by cases hx; exact hrun.world_done, fun h => by cases h⟩
    | fault f w' =>
      rw [hr] at hrun
      exact ⟨fun x hx => by cases hx; exact hI.log _ _ hrun.of_fault.2, fun h => by cases h⟩
    | tooDeep =>
      rw [hr] at hrun
      exact ⟨fun x hx => (nomatch hx), fun _ => hrun.of_tooDeep⟩

/-- The handlers of some events keep to the postcondition. -/
def HandlersMeet (I : World → Prop) (D : Prop) (registry : Registry) (run : Runner)
    (events : List Event) : Prop :=
  ∀ e ∈ events, ∀ h, registry.get? e.handler = some h → ∀ c ∈ h.body, ∀ w, I w →
    (run e.sender c w).Meets I (fun _ => True) D

theorem handleAll_meets (hI : Stable E I) {registry : Registry} {run : Runner} :
    ∀ {events : List Event}, HandlersMeet I D registry run events → ∀ {w}, I w →
      (handleAll registry run events w).Meets I F D
  | [], _, _, hw => .done hw
  | e :: es, hall, w, hw => by
    obtain ⟨hsome, hnone⟩ := invokeWith_meets hI
      (fun h hh => runAll_meets (hall e List.mem_cons_self h hh) hw) hw
    unfold handleAll
    split
    · rename_i o w' heq
      exact handleAll_meets hI (fun e' he' => hall e' (List.mem_cons_of_mem _ he')) (hsome _ heq)
    · rename_i heq
      exact .tooDeep (hnone heq)

/-- Waiting, where taking the events of a world in `I` leads to `J`, and the handlers of the events
    keep `J`. -/
theorem waitUntil_meets (hJ : Stable E J) {p : Program} {run : Runner}
    (hJI : ∀ w, J w → I w) (hpump : ∀ w, I w → J { w with host := w.host.pump.2 })
    (hevents : ∀ w, I w → HandlersMeet J D p.registry run w.host.pump.1) (deadline : Nat) :
    ∀ rounds {w}, I w → (waitUntil p run deadline rounds w).Meets I F D
  | 0, _, hw => .done hw
  | rounds + 1, w, hw => by
    have hpumped : (pumpEvents p.registry run w).Meets J F D :=
      handleAll_meets hJ (hevents w hw) (hpump w hw)
    unfold waitUntil
    generalize pumpEvents p.registry run w = r at hpumped
    cases hpumped with
    | done hw' =>
      simp only [Run.andThen]
      split
      · exact .done (hJI _ hw')
      · exact waitUntil_meets hJ hJI hpump hevents deadline rounds (hJI _ (hJ.wait _ hw'))
    | fault hf hw' => exact .fault hf (hJI _ hw')
    | tooDeep hd => exact .tooDeep hd

end Rules

/-! ### All commands -/

section Step

variable {p : Program} {run : Runner} {sender : Option String} {node : Node} {w : World}
  {E : Effect → Prop} {I J : World → Prop} {F : Fault → Prop} {D : Prop}

/-- Only raising a fault ends in one, and it leaves the world as it is. -/
theorem perform_eq_fault {e : Effect} {f : Fault} {w' : World} (h : w.perform e = .fault f w') :
    e = .raise f ∧ w' = w := by
  cases e with
  | raise g =>
    cases h
    exact ⟨rfl, rfl⟩
  | _ => cases h

theorem perform_ne_tooDeep (w : World) (e : Effect) : w.perform e ≠ .tooDeep := by
  cases e <;> exact Run.noConfusion

theorem perform_meets (hI : Stable E I) (hw : I w) {e : Effect} (he : E e)
    (hraise : ∀ f, e = .raise f → F f) : (w.perform e).Meets I F D := by
  cases hr : w.perform e with
  | done w' => exact .done (hI.perform he hw hr)
  | fault f w' =>
    obtain ⟨rfl, rfl⟩ := perform_eq_fault hr
    exact .fault (hraise f rfl) hw
  | tooDeep => exact absurd hr (perform_ne_tooDeep w e)

/-- One command keeps to the postcondition if its own effects are those of `E` and raise faults of `F`
    only, and the nodes that it hands on keep to it: those below it, the body of the handler that it
    calls, and, under the stronger `J` that holds once the events are taken, the handlers of the events
    that it lets in. -/
theorem step_meets (hI : Stable E I) (hJ : Stable E J) (hJI : ∀ w, J w → I w)
    (hpump : ∀ w, I w → J { w with host := w.host.pump.2 })
    (hcauses : ∀ e, node.Causes p.limits (w.scope sender) e → E e)
    (hraise : ∀ moment f,
      (Command.ofTag node.tag).effect moment (w.scope sender) node = .raise f → F f)
    (hbelow : ∀ c, c.Below node → ∀ w, I w → (run sender c w).Meets I F D)
    (hcall : Command.ofTag node.tag = .call → ∀ w text h, I w →
      (w.scope sender).attrOf? node ["handler", "name"] = some text →
      p.registry.get? (Text.trim text) = some h →
      ∀ c ∈ h.body, ∀ w, I w → (run sender c w).Meets I F D)
    (hevents : ∀ w, I w → HandlersMeet J D p.registry run w.host.pump.1) (hw : I w) :
    (step p run sender node w).Meets I F D := by
  have hall : BodiesMeet I F D node (runAll (run sender)) := fun _ hns _ hw =>
    runAll_meets (fun c hc => hbelow c (hns c hc)) hw
  rcases (Command.ofTag node.tag).cases_step with
    hc | hc | hc | hc | hc | hc | hc | hc | ⟨hflow, hdelay⟩
  · rw [step_branch hc]
    exact hall _ (fun _ => below_of_mem_branchBody) w hw
  · rw [step_switch hc]
    exact hall _ (fun _ => below_of_mem_switchBody) w hw
  · rw [step_forEach hc]
    exact forEach_meets hI hall (fun value => hcauses _ (.item value hc))
      (fun value => hcauses _ (.index value hc)) hw
  · rw [step_whileLoop hc]
    exact whileLoop_meets hI hall _ _ hw
  · rw [step_tryCatch hc]
    exact tryCatch_meets hI hall (fun value => hcauses _ (.caught value hc)) hw
  · rw [step_call hc]
    exact call_meets hI hw fun text h htext hh => runAll_meets (hcall hc w text h hw htext hh) hw
  · rw [step_sequence hc]
    exact hall _ (fun _ => Node.below_of_mem) w hw
  · rw [step_delay hc]
    exact waitUntil_meets hJ hJI hpump hevents _ _ hw
  · rw [step_leaf hflow hdelay]
    exact perform_meets hI hw (hcauses _ (.effect _)) fun f hf => hraise _ f hf

end Step

/-- A set of nodes that running never leaves: it has whatever stands below its members, and the
    bodies of all handlers. -/
structure Program.Closed (p : Program) (S : Node → Prop) : Prop where
  below : ∀ {n c}, S n → c.Below n → S c
  body : ∀ {name h c}, p.registry.get? name = some h → c ∈ h.body → S c

/-- Runs of any depth keep what the effects of the nodes that running leads to keep, and a fault they
    end in was raised by the effect of such a node, in a world that the kept property holds of. -/
theorem execute_meets {p : Program} {S : Node → Prop} {E : Effect → Prop} {I : World → Prop}
    {F : Fault → Prop} (hS : p.Closed S) (hI : Stable E I)
    (hcauses : ∀ node sender w e, S node → I w → node.Causes p.limits (w.scope sender) e → E e)
    (hraise : ∀ node sender w moment f, S node → I w →
      (Command.ofTag node.tag).effect moment (w.scope sender) node = .raise f → F f) :
    ∀ depth {sender node w}, S node → I w → (execute p depth sender node w).Meets I F True
  | 0, _, _, _, _, _ => .tooDeep trivial
  | depth + 1, sender, node, w, hn, hw => by
    have ih := @execute_meets p S E I F hS hI hcauses hraise depth
    refine step_meets hI hI (fun _ h => h) (fun _ h => hI.pump h)
      (fun e => hcauses node sender w e hn hw) (fun moment f => hraise node sender w moment f hn hw)
      (fun c hc w => ih (hS.below hn hc)) (fun _ _ _ h _ _ hh c hc w => ih (hS.body hh hc))
      (fun _ _ e _ h hh c hc w hw => ?_) hw
    exact (ih (hS.body hh hc) hw).mono (fun _ h => h) fun _ _ => trivial

/-- What the effects of the nodes in the handlers keep, an invocation keeps. -/
theorem invoke_keeps_stable {p : Program} {S : Node → Prop} {E : Effect → Prop} {I : World → Prop}
    (hS : p.Closed S) (hI : Stable E I)
    (hcauses : ∀ node sender w e, S node → I w → node.Causes p.limits (w.scope sender) e → E e)
    {depth : Nat} {name : String} {sender : Option String} {w : World} {x : Outcome × World}
    (hw : I w) (h : invoke p depth name sender w = some x) : I x.2 := by
  have hbody : ∀ h, p.registry.get? name = some h →
      (runAll (execute p depth sender) h.body w).Meets I (fun _ => True) True := by
    intro h hh
    refine runAll_meets (fun c hc w' hw' => ?_) hw
    exact execute_meets hS hI hcauses (fun _ _ _ _ _ _ _ _ => trivial) depth (hS.body hh hc) hw'
  exact (invokeWith_meets hI hbody hw).1 x h

/-! ### Invariants -/

section Invariants

variable {p : Program} {depth : Nat} {sender : Option String} {w : World} {I : World → Prop}

/-- All nodes together are a set that running never leaves. -/
theorem Program.closed_true (p : Program) : p.Closed fun _ => True :=
  ⟨fun _ _ => trivial, fun _ _ => trivial⟩

/-- Runs keep an invariant, however they end. -/
theorem execute_keeps_invariant (hI : Invariant I) (node : Node) (hw : I w) :
    (execute p depth sender node w).Meets I (fun _ => True) True :=
  execute_meets p.closed_true hI (fun _ _ _ _ _ _ _ => trivial) (fun _ _ _ _ _ _ _ _ => trivial)
    depth trivial hw

/-- Invocations keep an invariant, whatever their outcomes. -/
theorem invoke_keeps_invariant (hI : Invariant I) {name : String} {x : Outcome × World} (hw : I w)
    (h : invoke p depth name sender w = some x) : I x.2 :=
  invoke_keeps_stable p.closed_true hI (fun _ _ _ _ _ _ _ => trivial) hw h

end Invariants

end HandlerScript
