import HandlerScript.Proofs.Run.Ending
import HandlerScript.Proofs.Run.Meets

/-! Guarded blocks.

    A `TryCatch` has three bodies. The first is tried; if it faults, the fault is written to the log and
    its message to a variable, and the second body handles it. `Attempts` tells what comes out of that.
    The last body runs in any case, from the world that is left then: `Guards` tells how its end goes
    together with what came before. The two have one rule for each way in which the bodies can end. They
    are all that can happen, and none of them lets the fault of the tried body out. -/

namespace HandlerScript

/-- The world in which the handling of a fault starts. -/
def World.caught (w : World) (name : String) (f : Fault) : World :=
  (w.log .debug ("Caught fault: " ++ f.display)).set name (.str f.message)

/-- What comes out of the tried commands of a block, where a fault of theirs is handled. The variable
    for its message is settled in the world that the block starts in. -/
inductive Program.Attempts (p : Program) (sender : Option String) (node : Node) (w : World) :
    Run → Prop
  | well {w₁ : World} : p.ComesTo sender (tryBody node) w (.done w₁) →
      Attempts p sender node w (.done w₁)
  | caught {f : Fault} {w₁ : World} {b : Run} : p.ComesTo sender (tryBody node) w (.fault f w₁) →
      p.ComesTo sender (bodyOf node "Catch")
        (w₁.caught (errorVariable p.limits (w.scope sender) node) f) b →
      Attempts p sender node w b

/-- What comes out of a block, whose last body runs in any case: a fault of that body wins over one
    from before. -/
inductive Program.Guards (p : Program) (sender : Option String) (node : Node) (w : World) : Run → Prop
  | passed {w₁ : World} {r : Run} : p.Attempts sender node w (.done w₁) →
      p.ComesTo sender (bodyOf node "Finally") w₁ r → Guards p sender node w r
  | faulted {f : Fault} {w₁ w₂ : World} : p.Attempts sender node w (.fault f w₁) →
      p.ComesTo sender (bodyOf node "Finally") w₁ (.done w₂) → Guards p sender node w (.fault f w₂)
  | replaced {f g : Fault} {w₁ w₂ : World} : p.Attempts sender node w (.fault f w₁) →
      p.ComesTo sender (bodyOf node "Finally") w₁ (.fault g w₂) →
      Guards p sender node w (.fault g w₂)

/-- A `TryCatch` before its last body. -/
def attempt (limits : Limits) (s : Scope) (all : List Node → World → Run) (node : Node) (w : World) :
    Run :=
  match all (tryBody node) w with
  | .fault f w => all (bodyOf node "Catch") (w.caught (errorVariable limits s node) f)
  | r => r

theorem tryCatch_eq (limits : Limits) (s : Scope) (all : List Node → World → Run) (node : Node)
    (w : World) : tryCatch limits s all node w =
      withFinally all (bodyOf node "Finally") (attempt limits s all node w) :=
  rfl

section Rules

variable {p : Program} {sender : Option String} {node : Node} {w : World} {b r : Run}

/-! ### The tried commands and their handling -/

theorem attempts_of_depth {depth : Nat} (hb : b ≠ .tooDeep)
    (h : attempt p.limits (w.scope sender) (runAll (execute p depth sender)) node w = b) :
    p.Attempts sender node w b := by
  unfold attempt at h
  cases htried : runAll (execute p depth sender) (tryBody node) w with
  | done w₁ =>
    rw [htried] at h
    subst h
    exact .well (.of_depth depth Run.noConfusion htried)
  | fault f w₁ =>
    rw [htried] at h
    exact .caught (.of_depth depth Run.noConfusion htried) (.of_depth depth hb h)
  | tooDeep =>
    rw [htried] at h
    exact absurd h.symm hb

theorem Program.Attempts.from_depth (h : p.Attempts sender node w b) : ∃ depth, ∀ d, depth ≤ d →
    attempt p.limits (w.scope sender) (runAll (execute p d sender)) node w = b := by
  cases h with
  | well htried =>
    obtain ⟨m, hm⟩ := htried.from_depth
    exact ⟨m, fun d hd => by rw [attempt, hm d hd]⟩
  | caught htried hhandling =>
    obtain ⟨m, hm⟩ := htried.from_depth
    obtain ⟨n, hn⟩ := hhandling.from_depth
    refine ⟨max m n, fun d hd => ?_⟩
    rw [attempt, hm d (by omega)]
    exact hn d (by omega)

/-! ### The last body -/

theorem guards_of_depth {depth : Nat} (hr : r ≠ .tooDeep)
    (h : tryCatch p.limits (w.scope sender) (runAll (execute p depth sender)) node w = r) :
    p.Guards sender node w r := by
  rw [tryCatch_eq] at h
  cases hattempt : attempt p.limits (w.scope sender) (runAll (execute p depth sender)) node w with
  | done w₁ =>
    rw [hattempt] at h
    exact .passed (attempts_of_depth Run.noConfusion hattempt) (.of_depth depth hr h)
  | fault f w₁ =>
    have hbefore := attempts_of_depth Run.noConfusion hattempt
    rw [hattempt, withFinally] at h
    cases hlast : runAll (execute p depth sender) (bodyOf node "Finally") w₁ with
    | done w₂ =>
      rw [hlast] at h
      subst h
      exact .faulted hbefore (.of_depth depth Run.noConfusion hlast)
    | fault g w₂ =>
      rw [hlast] at h
      subst h
      exact .replaced hbefore (.of_depth depth Run.noConfusion hlast)
    | tooDeep =>
      rw [hlast] at h
      exact absurd h.symm hr
  | tooDeep =>
    rw [hattempt] at h
    exact absurd h.symm hr

/-- A depth at which both what comes before the last body and that body have their results. -/
theorem exists_depth_last {w₁ : World} {c : Run} (hbefore : p.Attempts sender node w b)
    (hlast : p.ComesTo sender (bodyOf node "Finally") w₁ c) :
    ∃ depth, tryCatch p.limits (w.scope sender) (runAll (execute p depth sender)) node w =
        withFinally (runAll (execute p depth sender)) (bodyOf node "Finally") b ∧
      runAll (execute p depth sender) (bodyOf node "Finally") w₁ = c := by
  obtain ⟨m, hm⟩ := hbefore.from_depth
  obtain ⟨n, hn⟩ := hlast.from_depth
  refine ⟨max m n, ?_, hn _ (Nat.le_max_right m n)⟩
  rw [tryCatch_eq, hm _ (Nat.le_max_left m n)]

theorem Program.Guards.exists_depth (h : p.Guards sender node w r) : r ≠ .tooDeep ∧
    ∃ depth, tryCatch p.limits (w.scope sender) (runAll (execute p depth sender)) node w = r := by
  cases h with
  | passed hbefore hlast =>
    obtain ⟨depth, hblock, hend⟩ := exists_depth_last hbefore hlast
    exact ⟨hlast.1, depth, hblock.trans hend⟩
  | faulted hbefore hlast | replaced hbefore hlast =>
    obtain ⟨depth, hblock, hend⟩ := exists_depth_last hbefore hlast
    refine ⟨Run.noConfusion, depth, ?_⟩
    rw [hblock, withFinally, hend]
    rfl

/-- If the bodies end where they start, some rule applies. -/
theorem exists_guards (htried : ∃ a, p.ComesTo sender (tryBody node) w a)
    (hhandling : ∀ f w₁, p.ComesTo sender (tryBody node) w (.fault f w₁) →
      ∃ b, p.ComesTo sender (bodyOf node "Catch")
        (w₁.caught (errorVariable p.limits (w.scope sender) node) f) b)
    (hlast : ∀ b w₁, p.Attempts sender node w b → b.world? = some w₁ →
      ∃ c, p.ComesTo sender (bodyOf node "Finally") w₁ c) : ∃ r, p.Guards sender node w r := by
  obtain ⟨b, hb, hbefore⟩ : ∃ b, b ≠ .tooDeep ∧ p.Attempts sender node w b := by
    obtain ⟨a, ha⟩ := htried
    cases a with
    | done w₁ => exact ⟨_, Run.noConfusion, .well ha⟩
    | fault f w₁ =>
      obtain ⟨b, hb⟩ := hhandling f w₁ ha
      exact ⟨b, hb.1, .caught ha hb⟩
    | tooDeep => exact absurd rfl ha.1
  cases b with
  | done w₁ =>
    obtain ⟨c, hc⟩ := hlast _ w₁ hbefore rfl
    exact ⟨c, .passed hbefore hc⟩
  | fault f w₁ =>
    obtain ⟨c, hc⟩ := hlast _ w₁ hbefore rfl
    cases c with
    | done w₂ => exact ⟨_, .faulted hbefore hc⟩
    | fault g w₂ => exact ⟨_, .replaced hbefore hc⟩
    | tooDeep => exact absurd rfl hc.1
  | tooDeep => exact absurd rfl hb

end Rules

/-- A `TryCatch` comes to exactly what the rules say of its three bodies. If each body that starts ends,
    so does the block, and a fault that it ends in comes from its last body or from the one that handles
    faults. -/
theorem tryCatch_recovers (p : Program) (sender : Option String) (node : Node) (w : World)
    (htag : node.hasTag "TryCatch" = true) :
    (∀ r, p.ComesTo sender [node] w r ↔ p.Guards sender node w r) ∧
    ((∃ a, p.ComesTo sender (tryBody node) w a) →
      (∀ f w₁, p.ComesTo sender (tryBody node) w (.fault f w₁) →
        ∃ b, p.ComesTo sender (bodyOf node "Catch")
          (w₁.caught (errorVariable p.limits (w.scope sender) node) f) b) →
      (∀ b w₁, p.Attempts sender node w b → b.world? = some w₁ →
        ∃ c, p.ComesTo sender (bodyOf node "Finally") w₁ c) →
      ∃ r, p.ComesTo sender [node] w r) ∧
    ∀ g w', p.ComesTo sender [node] w (.fault g w') →
      ∃ w₁, p.ComesTo sender (bodyOf node "Finally") w₁ (.fault g w') ∨
        ∃ w₂, p.ComesTo sender (bodyOf node "Catch") w₁ (.fault g w₂) ∧
          p.ComesTo sender (bodyOf node "Finally") w₂ (.done w') := by
  have hc : Command.ofTag node.tag = .tryCatch := Command.ofTag_of_hasTag htag
  have hrules : ∀ r, p.ComesTo sender [node] w r ↔ p.Guards sender node w r := by
    intro r
    rw [comesTo_step]
    simp only [step_tryCatch hc]
    exact ⟨fun ⟨hr, _, h⟩ => guards_of_depth hr h, Program.Guards.exists_depth⟩
  refine ⟨hrules, fun htried hhandling hlast => ?_, fun g w' h => ?_⟩
  · obtain ⟨r, hr⟩ := exists_guards htried hhandling hlast
    exact ⟨r, (hrules r).2 hr⟩
  · cases (hrules _).1 h with
    | passed _ hlast | replaced _ hlast => exact ⟨_, .inl hlast⟩
    | faulted hbefore hlast =>
      cases hbefore with
      | caught _ hhandling => exact ⟨_, .inr ⟨_, hhandling, hlast⟩⟩

/-- A block that clears a variable and faults, faults again while handling that with the message that
    it was given, and writes to the log in the end. -/
def Node.rethrowing : Node where
  tag := "trycatch"
  attributes := Table.ofList [("errorVar", " e ")]
  children :=
    [{ tag := "Finally", children := [{ tag := "Log", text := some "end" }] },
      { tag := "Try"
        children := [{ tag := "Clear", attributes := Table.ofList [("var", "x")] },
          { tag := "Throw", text := some "first" }] },
      { tag := "Catch", children := [{ tag := "Throw", text := some "again: {e}" }] }]

/-- The fault of the handling body comes out, after the last body has run; the fault before it is in
    the variable, and what was done before that fault stays done. -/
theorem tryCatch_recovers_rethrowing : Node.rethrowing.hasTag "TryCatch" = true ∧
    ∃ w', Program.ComesTo {} none [.rethrowing] {} (.fault (.raised "again: first") w') ∧
      w'.store.get? "e" = some (.str "first") ∧ w'.store.get? "x" = some (.str "") ∧
      w'.host.logs.toList = [(.debug, "Caught fault: first"), (.info, "end")] ∧
      Program.Guards {} none .rethrowing {} (.fault (.raised "again: first") w') := by
  have htag : Node.rethrowing.hasTag "TryCatch" = true := by decide +kernel
  obtain ⟨hrules, hends, -⟩ := tryCatch_recovers {} none .rethrowing {} htag
  obtain ⟨w₁, htried, hhandling⟩ : ∃ w₁,
      Program.ComesTo {} none (tryBody .rethrowing) {} (.fault (.raised "first") w₁) ∧
      ∃ b, Program.ComesTo {} none (bodyOf .rethrowing "Catch") (w₁.caught "e" (.raised "first")) b :=
    ⟨_, .of_depth 1 Run.noConfusion rfl, .fault (.raised "again: first") _,
      .of_depth 1 Run.noConfusion rfl⟩
  obtain ⟨r, hr⟩ := hends ⟨_, htried⟩
    (fun f w₂ h => by
      cases h.unique htried
      exact hhandling)
    (fun b w₂ _ _ => ⟨.done _, .of_depth 1 Run.noConfusion rfl⟩)
  obtain ⟨w', hw', hcaught, hcleared, hlogs⟩ : ∃ w', runAll (execute {} 2 none) [.rethrowing] {} =
      .fault (.raised "again: first") w' ∧ w'.store.get? "e" = some (.str "first") ∧
      w'.store.get? "x" = some (.str "") ∧
      w'.host.logs.toList = [(.debug, "Caught fault: first"), (.info, "end")] :=
    ⟨_, rfl, rfl, rfl, rfl⟩
  cases hr.unique (.of_depth 2 Run.noConfusion hw')
  exact ⟨htag, w', hr, hcaught, hcleared, hlogs, (hrules _).1 hr⟩

end HandlerScript
