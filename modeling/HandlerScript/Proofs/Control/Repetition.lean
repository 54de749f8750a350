import HandlerScript.Proofs.Run.Ending
import Mathlib.Order.Bounds.Basic

/-! How often a `While` runs its body.

    Before each round a `While` looks at its condition, and then at how many rounds are over. So it runs
    its body until the condition fails, or the ceiling is reached, or a round faults, whichever comes
    first. `Loops` lists the ways of a loop, one round at a time; from it, by induction, the number of
    rounds is the least at which one of the three reasons applies, and the loop comes to what so many
    copies of its body in a row come to, with a warning if the condition still holds at the ceiling.

    A loop that counts its rounds up in a machine word, as `countedWhile` does, never counts beyond
    it. -/

namespace HandlerScript

/-- The body of a loop, `k` times over. -/
def Node.repeated (node : Node) (k : Nat) : List Node := (List.replicate k node.children).flatten

/-- The world with the warning that a loop was stopped at its ceiling. -/
def World.ceilingReached (w : World) (limits : Limits) : World :=
  w.log .warn ("While loop stopped after " ++ Decimal.natText limits.maxLoopIterations ++ " iterations")

/-- A loop may stop after `k` rounds: its condition fails then, or they are as many as the ceiling
    allows, or one of them faults. -/
def Program.StopsAfter (p : Program) (sender : Option String) (node : Node) (ceiling : Nat) (w : World)
    (k : Nat) : Prop :=
  (∃ w', p.ComesTo sender (node.repeated k) w (.done w') ∧
    conditionHolds (w'.scope sender) node = false) ∨
  k = ceiling ∨ ∃ f w', p.ComesTo sender (node.repeated k) w (.fault f w')

theorem toNat_succ_of_lt {i : UInt64} (h : i.toNat + 1 < UInt64.size) :
    (i + 1).toNat = i.toNat + 1 := by
  rw [UInt64.toNat_add]
  exact Nat.mod_eq_of_lt h

/-- A loop with a counter of 64 bits for the rounds that are over. It tells how often its body was run
    besides its result, and gives nothing if the counter overflows. -/
def countedWhile (holds : World → Bool) (stopped : World → World) (body : World → Run)
    (ceiling i : UInt64) (w : World) : Option (Nat × Run) :=
  if holds w then
    if ceiling ≤ i then some (0, .done (stopped w))
    else match body w with
      | .done w =>
        if i.toNat + 1 < UInt64.size then
          (countedWhile holds stopped body ceiling (i + 1) w).map fun (k, r) => (k + 1, r)
        else none
      | r => some (1, r)
  else some (0, .done w)
termination_by UInt64.size - i.toNat
decreasing_by
  rename_i h
  rw [toNat_succ_of_lt h]
  omega

/-- A loop that may run `n` rounds from the world `w` on runs `m` and ends in `r`. -/
inductive Program.Loops (p : Program) (sender : Option String) (node : Node) :
    Nat → World → Nat → Run → Prop
  | ended {n : Nat} {w : World} : conditionHolds (w.scope sender) node = false →
      Loops p sender node n w 0 (.done w)
  | stopped {w : World} : conditionHolds (w.scope sender) node = true →
      Loops p sender node 0 w 0 (.done (w.ceilingReached p.limits))
  | fault {n : Nat} {w w₁ : World} {f : Fault} : conditionHolds (w.scope sender) node = true →
      p.ComesTo sender node.children w (.fault f w₁) →
      Loops p sender node (n + 1) w 1 (.fault f w₁)
  | round {n m : Nat} {w w₁ : World} {r : Run} : conditionHolds (w.scope sender) node = true →
      p.ComesTo sender node.children w (.done w₁) → Loops p sender node n w₁ m r →
      Loops p sender node (n + 1) w (m + 1) r

section Rounds

variable {p : Program} {sender : Option String} {node : Node} {n m : Nat} {w w₁ : World} {r : Run}

theorem Node.repeated_succ (node : Node) (k : Nat) :
    node.repeated (k + 1) = node.children ++ node.repeated k := by
  rw [repeated, List.replicate_succ, List.flatten_cons, repeated]

theorem comesTo_repeated_zero : p.ComesTo sender (node.repeated 0) w r ↔ r = .done w :=
  comesTo_nil

/-- After a round that ends well, the rounds behind it go on from the world that it leaves. -/
theorem comesTo_repeated_succ (h : p.ComesTo sender node.children w (.done w₁)) (k : Nat) :
    p.ComesTo sender (node.repeated (k + 1)) w r ↔ p.ComesTo sender (node.repeated k) w₁ r := by
  rw [Node.repeated_succ]
  exact comesTo_append_of_done h

/-! ### Reasons to stop -/

theorem not_stopsAfter_zero (h : conditionHolds (w.scope sender) node = true) :
    ¬ p.StopsAfter sender node (n + 1) w 0 := by
  rintro (⟨w', hw', hended⟩ | hzero | ⟨f, w', hw'⟩)
  · cases comesTo_repeated_zero.1 hw'
    rw [h] at hended
    cases hended
  · cases hzero
  · cases comesTo_repeated_zero.1 hw'

theorem stopsAfter_succ (h : p.ComesTo sender node.children w (.done w₁)) (k : Nat) :
    p.StopsAfter sender node (n + 1) w (k + 1) ↔ p.StopsAfter sender node n w₁ k := by
  simp only [Program.StopsAfter, comesTo_repeated_succ h, Nat.add_right_cancel_iff]

/-- The number of rounds is the least at which there is a reason to stop. -/
theorem Program.Loops.isLeast (h : p.Loops sender node n w m r) :
    IsLeast {k | p.StopsAfter sender node n w k} m := by
  induction h with
  | @ended n w hended =>
    exact ⟨.inl ⟨w, comesTo_repeated_zero.2 rfl, hended⟩, fun k _ => Nat.zero_le k⟩
  | stopped => exact ⟨.inr (.inl rfl), fun k _ => Nat.zero_le k⟩
  | @fault n w w₁ f hholds hbody =>
    refine ⟨.inr (.inr ⟨f, w₁, ?_⟩), fun k hk => ?_⟩
    · rw [Node.repeated_succ]
      exact (comesTo_append_of_fault hbody).2 rfl
    · cases k with
      | zero => exact absurd hk (not_stopsAfter_zero hholds)
      | succ k => exact Nat.succ_pos k
  | round hholds hbody _ ih =>
    refine ⟨(stopsAfter_succ hbody _).2 ih.1, fun k hk => ?_⟩
    cases k with
    | zero => exact absurd hk (not_stopsAfter_zero hholds)
    | succ k => exact Nat.succ_le_succ (ih.2 ((stopsAfter_succ hbody k).1 hk))

/-- What the loop comes to, by the rounds alone. -/
theorem Program.Loops.result (h : p.Loops sender node n w m r) :
    (∃ f w', p.ComesTo sender (node.repeated m) w (.fault f w') ∧ r = .fault f w') ∨
    ∃ w', p.ComesTo sender (node.repeated m) w (.done w') ∧
      r = .done (if m = n ∧ conditionHolds (w'.scope sender) node = true
        then w'.ceilingReached p.limits else w') := by
  induction h with
  | @ended n w hended =>
    refine .inr ⟨w, comesTo_repeated_zero.2 rfl, ?_⟩
    rw [if_neg]
    rintro ⟨-, hholds⟩
    rw [hended] at hholds
    cases hholds
  | @stopped w hholds =>
    refine .inr ⟨w, comesTo_repeated_zero.2 rfl, ?_⟩
    rw [if_pos ⟨rfl, hholds⟩]
  | @fault n w w₁ f _ hbody =>
    refine .inl ⟨f, w₁, ?_, rfl⟩
    rw [Node.repeated_succ]
    exact (comesTo_append_of_fault hbody).2 rfl
  | round _ hbody _ ih =>
    simpa only [comesTo_repeated_succ hbody, Nat.add_right_cancel_iff] using ih

/-! ### The loop itself -/

theorem whileLoop_eq (limits : Limits) (sender : Option String) (all : List Node → World → Run)
    (node : Node) (w : World) : whileLoop limits sender all node w =
      repeatWhile (fun w => conditionHolds (w.scope sender) node) (·.ceilingReached limits)
        (all node.children) limits.maxLoopIterations w :=
  rfl

/-- If every round that is begun ends, the loop goes one of its ways. -/
theorem exists_loops : ∀ (n : Nat) {w : World},
    (∀ k < n, (∀ j ≤ k, ∃ w', p.ComesTo sender (node.repeated j) w (.done w') ∧
      conditionHolds (w'.scope sender) node = true) →
      ∃ r, p.ComesTo sender (node.repeated (k + 1)) w r) → ∃ m r, p.Loops sender node n w m r
  | n, w, hends => by
    cases hholds : conditionHolds (w.scope sender) node with
    | false => exact ⟨0, _, .ended hholds⟩
    | true =>
      cases n with
      | zero => exact ⟨0, _, .stopped hholds⟩
      | succ n =>
        have hfirst : ∀ j ≤ 0, ∃ w', p.ComesTo sender (node.repeated j) w (.done w') ∧
            conditionHolds (w'.scope sender) node = true := by
          rintro j hj
          cases Nat.le_zero.1 hj
          exact ⟨w, comesTo_repeated_zero.2 rfl, hholds⟩
        obtain ⟨r, hr⟩ := hends 0 (Nat.succ_pos n) hfirst
        rw [Node.repeated_succ, Node.repeated, List.replicate_zero, List.flatten_nil,
          List.append_nil] at hr
        cases r with
        | fault f w₁ => exact ⟨1, _, .fault hholds hr⟩
        | tooDeep => exact absurd rfl hr.1
        | done w₁ =>
          obtain ⟨m, r, hloops⟩ := exists_loops n fun k hk hrounds => by
            obtain ⟨r, hr'⟩ := hends (k + 1) (Nat.succ_lt_succ hk) fun j hj => by
              cases j with
              | zero => exact hfirst 0 le_rfl
              | succ j =>
                simp only [comesTo_repeated_succ hr]
                exact hrounds j (Nat.le_of_succ_le_succ hj)
            exact ⟨r, (comesTo_repeated_succ hr _).1 hr'⟩
          exact ⟨m + 1, r, .round hholds hr hloops⟩

/-- From some depth on the loop of the command does what `Loops` says. -/
theorem Program.Loops.from_depth (h : p.Loops sender node n w m r) : ∃ depth, ∀ d, depth ≤ d →
    repeatWhile (fun w => conditionHolds (w.scope sender) node) (·.ceilingReached p.limits)
      (runAll (execute p d sender) node.children) n w = r := by
  induction h with
  | @ended n w hended =>
    refine ⟨0, fun d _ => ?_⟩
    cases n <;> rw [repeatWhile, hended] <;> rfl
  | stopped hholds => exact ⟨0, fun d _ => by rw [repeatWhile, if_pos hholds]⟩
  | fault hholds hbody =>
    obtain ⟨depth, hdepth⟩ := hbody.from_depth
    refine ⟨depth, fun d hd => ?_⟩
    rw [repeatWhile, if_pos hholds, hdepth d hd]
    rfl
  | round hholds hbody _ ih =>
    obtain ⟨m, hm⟩ := hbody.from_depth
    obtain ⟨n, hn⟩ := ih
    refine ⟨max m n, fun d hd => ?_⟩
    rw [repeatWhile, if_pos hholds, hm d (by omega)]
    exact hn d (by omega)

/-- From some depth on the loop with a counter does the same, and its counter does not overflow. -/
theorem Program.Loops.counted (h : p.Loops sender node n w m r) {ceiling : UInt64} :
    ∀ {i : UInt64}, i.toNat + n = ceiling.toNat → ∃ depth, ∀ d, depth ≤ d →
      countedWhile (fun w => conditionHolds (w.scope sender) node) (·.ceilingReached p.limits)
        (runAll (execute p d sender) node.children) ceiling i w = some (m, r) := by
  induction h with
  | ended hended =>
    intro i _
    refine ⟨0, fun d _ => ?_⟩
    rw [countedWhile, hended]
    rfl
  | stopped hholds =>
    intro i hi
    have hreached : ceiling ≤ i := UInt64.le_iff_toNat_le.2 (by omega)
    exact ⟨0, fun d _ => by rw [countedWhile, if_pos hholds, if_pos hreached]⟩
  | fault hholds hbody =>
    intro i hi
    have hbelow : ¬ ceiling ≤ i := UInt64.not_le.2 (UInt64.lt_iff_toNat_lt.2 (by omega))
    obtain ⟨depth, hdepth⟩ := hbody.from_depth
    refine ⟨depth, fun d hd => ?_⟩
    rw [countedWhile, if_pos hholds, if_neg hbelow, hdepth d hd]
  | round hholds hbody _ ih =>
    intro i hi
    have hbelow : ¬ ceiling ≤ i := UInt64.not_le.2 (UInt64.lt_iff_toNat_lt.2 (by omega))
    -- the counter stays below the ceiling, which is a word itself
    have hword : i.toNat + 1 < UInt64.size := by
      have := ceiling.toNat_lt_size
      omega
    obtain ⟨m, hm⟩ := hbody.from_depth
    obtain ⟨n, hn⟩ := @ih (i + 1) (by rw [toNat_succ_of_lt hword]; omega)
    refine ⟨max m n, fun d hd => ?_⟩
    rw [countedWhile, if_pos hholds, if_neg hbelow, hm d (by omega)]
    dsimp only
    rw [if_pos hword, hn d (by omega)]
    rfl

end Rounds

/-- If every round that is begun ends, a `While` runs its body `m` times, for the least `m` at which
    there is a reason to stop. It comes to what so many copies of the body come to: to their fault, or
    to their world, with one warning exactly if the condition still holds at the ceiling. A counter of
    64 bits for the rounds counts so many and does not overflow. -/
theorem while_runs_body (p : Program) (sender : Option String) (node : Node) (w : World)
    (ceiling : UInt64) (htag : node.hasTag "While" = true)
    (hceiling : p.limits.maxLoopIterations = ceiling.toNat)
    (hends : ∀ k < ceiling.toNat,
      (∀ j ≤ k, ∃ w', p.ComesTo sender (node.repeated j) w (.done w') ∧
        conditionHolds (w'.scope sender) node = true) →
      ∃ r, p.ComesTo sender (node.repeated (k + 1)) w r) :
    ∃ m, IsLeast {k | p.StopsAfter sender node ceiling.toNat w k} m ∧
      ((∃ f w', p.ComesTo sender (node.repeated m) w (.fault f w') ∧
        p.ComesTo sender [node] w (.fault f w')) ∨
      ∃ w', p.ComesTo sender (node.repeated m) w (.done w') ∧
        p.ComesTo sender [node] w (.done
          (if m = ceiling.toNat ∧ conditionHolds (w'.scope sender) node = true
            then w'.ceilingReached p.limits else w'))) ∧
      ∃ depth, ∀ d, depth ≤ d →
        countedWhile (fun w => conditionHolds (w.scope sender) node) (·.ceilingReached p.limits)
          (runAll (execute p d sender) node.children) ceiling 0 w =
          some (m, execute p (d + 1) sender node w) := by
  have hc : Command.ofTag node.tag = .whileLoop := Command.ofTag_of_hasTag htag
  obtain ⟨m, r, hloops⟩ := exists_loops ceiling.toNat hends
  obtain ⟨depth, hdepth⟩ := hloops.from_depth
  have hrun : ∀ d, depth ≤ d → execute p (d + 1) sender node w = r := fun d hd => by
    rw [execute, step_whileLoop hc, whileLoop_eq, hceiling]
    exact hdepth d hd
  have hwhile : r ≠ .tooDeep → p.ComesTo sender [node] w r := fun hr =>
    comesTo_step.2 ⟨hr, depth, hrun depth le_rfl⟩
  refine ⟨m, hloops.isLeast, ?_, ?_⟩
  · rcases hloops.result with ⟨f, w', hrounds, rfl⟩ | ⟨w', hrounds, rfl⟩
    · exact .inl ⟨f, w', hrounds, hwhile Run.noConfusion⟩
    · exact .inr ⟨w', hrounds, hwhile Run.noConfusion⟩
  · obtain ⟨n, hn⟩ := hloops.counted (i := 0) (Nat.zero_add _)
    refine ⟨max depth n, fun d hd => ?_⟩
    rw [hrun d (by omega)]
    exact hn d (by omega)

/-- Loops may run their bodies twice. -/
def Program.twice : Program := { limits := { maxLoopIterations := 2 } }

/-- A loop that appends to a text until it has two letters. -/
def Node.appending : Node where
  tag := "while"
  attributes := Table.ofList [("condition", "{x} != aa")]
  children := [{ tag := "Append", attributes := Table.ofList [("var", "x"), ("value", "a")] }]

/-- The condition of the loop fails exactly at the ceiling: both rounds are run, and there is no
    warning. -/
theorem while_runs_body_appending : Node.appending.hasTag "While" = true ∧
    Program.twice.limits.maxLoopIterations = (2 : UInt64).toNat ∧
    ∃ m w₁ w₂, IsLeast {k | Program.StopsAfter .twice none .appending 2 {} k} m ∧
      Program.ComesTo .twice none (Node.appending.repeated m) {} (.done w₁) ∧
      w₁.store.get? "x" = some (.str "aa") ∧
      Program.ComesTo .twice none [.appending] {} (.done w₂) ∧ w₂.host.logs.toList = [] := by
  have htag : Node.appending.hasTag "While" = true := by decide +kernel
  have hrounds : ∀ k < (2 : UInt64).toNat, ∃ r,
      Program.ComesTo .twice none (Node.appending.repeated (k + 1)) {} r := by
    intro k hk
    match k, hk with
    | 0, _ => exact ⟨.done _, .of_depth 1 Run.noConfusion rfl⟩
    | 1, _ => exact ⟨.done _, .of_depth 1 Run.noConfusion rfl⟩
  obtain ⟨m, hleast, hend, -⟩ := while_runs_body .twice none .appending {} 2 htag rfl
    fun k hk _ => hrounds k hk
  obtain ⟨w₂, hw₂, hx, hlogs⟩ : ∃ w₂, runAll (execute .twice 2 none) [.appending] {} = .done w₂ ∧
      w₂.store.get? "x" = some (.str "aa") ∧ w₂.host.logs.toList = [] := ⟨_, rfl, rfl, rfl⟩
  have hloop : Program.ComesTo .twice none [.appending] {} (.done w₂) :=
    .of_depth 2 Run.noConfusion hw₂
  rcases hend with ⟨f, w₁, -, hfault⟩ | ⟨w₁, hcopies, hdone⟩
  · cases hfault.unique hloop
  · have hworld := Run.done.inj (hdone.unique hloop)
    have hstore : w₂.store = w₁.store := by
      rw [← hworld]
      split <;> rfl
    exact ⟨htag, rfl, m, w₁, w₂, hleast, hcopies, hstore ▸ hx, hloop, hlogs⟩

end HandlerScript
