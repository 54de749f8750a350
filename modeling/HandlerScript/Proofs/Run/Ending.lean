import HandlerScript.Proofs.Run.Depth

/-! What commands come to.

    `p.ComesTo sender ns w r` says that the commands `ns`, run one after the other from the world `w`,
    end in `r`, whatever depth that takes: some depth is enough, and then every greater one gives the
    same. So commands come to one result at most, commands in a row come to what the second part makes
    of the first, and a command that only hands others on comes to what they come to. -/

namespace HandlerScript

/-- Run in order from a world, the commands end in `r`, given enough depth. -/
def Program.ComesTo (p : Program) (sender : Option String) (ns : List Node) (w : World) (r : Run) :
    Prop :=
  r ≠ .tooDeep ∧ ∃ depth, runAll (execute p depth sender) ns w = r

section Lists

variable {run : Node → World → Run} {w : World}

theorem runAll_singleton (n : Node) : runAll run [n] w = run n w := by
  rw [runAll]
  cases run n w <;> rfl

theorem runAll_append : ∀ (ns ms : List Node) (w : World),
    runAll run (ns ++ ms) w = (runAll run ns w).andThen (runAll run ms)
  | [], _, _ => rfl
  | n :: ns, ms, w => by
    rw [List.cons_append, runAll, runAll]
    cases run n w with
    | done w' => exact runAll_append ns ms w'
    | fault f w' => rfl
    | tooDeep => rfl

end Lists

variable {p : Program} {sender : Option String} {ns ms : List Node} {w : World} {r r' : Run}

/-- Commands that end give the same result under any greater depth. -/
theorem runAll_mono {n m : Nat} (h : n ≤ m) (hr : runAll (execute p n sender) ns w ≠ .tooDeep) :
    runAll (execute p m sender) ns w = runAll (execute p n sender) ns w := by
  have hrun : ∀ c c', c = c' → ∀ w w', w = w' →
      (execute p n sender c w).Agree Eq True (execute p m sender c' w') := by
    rintro c _ rfl w _ rfl
    exact execute_agree h sender c w
  exact (runAll_agree hrun (List.forall₂_refl ns) rfl).eq_of_ne hr

namespace Program.ComesTo

theorem of_depth (depth : Nat) (hr : r ≠ .tooDeep)
    (h : runAll (execute p depth sender) ns w = r) : p.ComesTo sender ns w r :=
  ⟨hr, depth, h⟩

/-- From some depth on the commands give their result. -/
theorem from_depth (h : p.ComesTo sender ns w r) :
    ∃ depth, ∀ d, depth ≤ d → runAll (execute p d sender) ns w = r := by
  obtain ⟨hr, depth, rfl⟩ := h
  exact ⟨depth, fun d hd => runAll_mono hd hr⟩

theorem unique (h : p.ComesTo sender ns w r) (h' : p.ComesTo sender ns w r') : r = r' := by
  obtain ⟨m, hm⟩ := h.from_depth
  obtain ⟨n, hn⟩ := h'.from_depth
  rw [← hm (max m n) (Nat.le_max_left m n), ← hn (max m n) (Nat.le_max_right m n)]

end Program.ComesTo

/-- No commands leave the world as it is. -/
theorem comesTo_nil : p.ComesTo sender [] w r ↔ r = .done w := by
  constructor
  · rintro ⟨-, depth, h⟩
    exact h.symm
  · rintro rfl
    exact ⟨Run.noConfusion, 0, rfl⟩

/-- Commands in a row: the second part goes on where the first ended well, and a fault of the first
    is the end. -/
theorem comesTo_append : p.ComesTo sender (ns ++ ms) w r ↔
    (∃ w', p.ComesTo sender ns w (.done w') ∧ p.ComesTo sender ms w' r) ∨
      ∃ f w', p.ComesTo sender ns w (.fault f w') ∧ r = .fault f w' := by
  constructor
  · rintro ⟨hr, depth, h⟩
    rw [runAll_append] at h
    cases hfirst : runAll (execute p depth sender) ns w with
    | done w' =>
      rw [hfirst] at h
      exact .inl ⟨w', .of_depth depth Run.noConfusion hfirst, .of_depth depth hr h⟩
    | fault f w' =>
      rw [hfirst] at h
      exact .inr ⟨f, w', .of_depth depth Run.noConfusion hfirst, h.symm⟩
    | tooDeep =>
      rw [hfirst] at h
      exact absurd h.symm hr
  · rintro (⟨w', hfirst, hsecond⟩ | ⟨f, w', hfirst, rfl⟩)
    · obtain ⟨m, hm⟩ := hfirst.from_depth
      obtain ⟨n, hn⟩ := hsecond.from_depth
      refine ⟨hsecond.1, max m n, ?_⟩
      rw [runAll_append, hm _ (Nat.le_max_left m n)]
      exact hn _ (Nat.le_max_right m n)
    · obtain ⟨m, hm⟩ := hfirst.from_depth
      refine ⟨Run.noConfusion, m, ?_⟩
      rw [runAll_append, hm m (Nat.le_refl m)]
      rfl

/-- Behind commands that end well, commands come to what they come to in the world that is left. -/
theorem comesTo_append_of_done {w₁ : World} (h : p.ComesTo sender ns w (.done w₁)) :
    p.ComesTo sender (ns ++ ms) w r ↔ p.ComesTo sender ms w₁ r := by
  rw [comesTo_append]
  constructor
  · rintro (⟨w', hfirst, hsecond⟩ | ⟨f, w', hfirst, -⟩)
    · cases h.unique hfirst
      exact hsecond
    · cases h.unique hfirst
  · exact fun hsecond => .inl ⟨w₁, h, hsecond⟩

/-- Commands behind a fault are not reached. -/
theorem comesTo_append_of_fault {f : Fault} {w₁ : World}
    (h : p.ComesTo sender ns w (.fault f w₁)) :
    p.ComesTo sender (ns ++ ms) w r ↔ r = .fault f w₁ := by
  rw [comesTo_append]
  constructor
  · rintro (⟨w', hfirst, -⟩ | ⟨g, w', hfirst, rfl⟩)
    · cases h.unique hfirst
    · exact hfirst.unique h
  · exact fun hr => .inr ⟨f, w₁, h, hr⟩

/-- What a command comes to is what one step of it gives at some depth of the commands inside. -/
theorem comesTo_step {n : Node} : p.ComesTo sender [n] w r ↔
    r ≠ .tooDeep ∧ ∃ depth, step p (execute p depth) sender n w = r := by
  refine and_congr_right fun hr => ?_
  constructor
  · rintro ⟨depth, h⟩
    rw [runAll_singleton] at h
    cases depth with
    | zero => exact absurd h.symm hr
    | succ depth => exact ⟨depth, h⟩
  · rintro ⟨depth, h⟩
    refine ⟨depth + 1, ?_⟩
    rw [runAll_singleton]
    exact h

/-- A command that only hands others on comes to what they come to. -/
theorem comesTo_of_hands_on {n : Node}
    (h : ∀ run : Runner, step p run sender n w = runAll (run sender) ns w) :
    p.ComesTo sender [n] w r ↔ p.ComesTo sender ns w r := by
  rw [comesTo_step]
  simp only [h]
  rfl

end HandlerScript
