import HandlerScript.Proofs.Run.Step

/-! Leaf commands: those that run no others and do not wait.

    A command is a leaf by its tag alone. Given any depth it reads the world at the start, settles on
    one effect and performs it. -/

namespace HandlerScript

/-- The tags of the commands that run others or wait. -/
def branchingTags : List String :=
  ["If", "Switch", "ForEach", "While", "TryCatch", "Call", "Sequence", "Delay"]

/-- A command that runs no others and does not wait. -/
def Node.IsLeaf (n : Node) : Prop := ∀ tag ∈ branchingTags, n.hasTag tag = false

instance (n : Node) : Decidable n.IsLeaf :=
  inferInstanceAs (Decidable (∀ tag ∈ branchingTags, n.hasTag tag = false))

/-- What a leaf settles on. -/
def Node.effectAt (n : Node) (p : Program) (sender : Option String) (w : World) : Effect :=
  (Command.ofTag n.tag).effect (p.start.later w.elapsed) (w.scope sender) n

/-- The words of the commands that are no leaves. -/
theorem Command.word_of_not_leaf {c : Command} (h : c.isControlFlow = true ∨ c = .delay) :
    c ≠ .unknown ∧ ∃ tag ∈ branchingTags, Text.lower tag = c.word := by
  rcases h with h | rfl
  · cases c <;> first | exact absurd h Bool.false_ne_true | decide +kernel
  · decide +kernel

theorem Node.IsLeaf.command {n : Node} (h : n.IsLeaf) :
    (Command.ofTag n.tag).isControlFlow = false ∧ Command.ofTag n.tag ≠ .delay := by
  have hnot : ¬ ((Command.ofTag n.tag).isControlFlow = true ∨ Command.ofTag n.tag = .delay) := by
    intro hbranching
    obtain ⟨hunknown, tag, hmem, hword⟩ := Command.word_of_not_leaf hbranching
    have htag : n.hasTag tag = true := by
      rw [hasTag, Text.sameLetters_iff, hword]
      exact Command.lower_of_ofTag rfl hunknown
    rw [h tag hmem] at htag
    cases htag
  exact ⟨Bool.eq_false_iff.2 fun hflow => hnot (.inl hflow), fun hdelay => hnot (.inr hdelay)⟩

/-- A leaf performs the effect that it settles on, in one step. -/
theorem execute_leaf {p : Program} {sender : Option String} {n : Node} (h : n.IsLeaf) (depth : Nat)
    (w : World) : execute p (depth + 1) sender n w = w.perform (n.effectAt p sender w) :=
  step_leaf h.command.1 h.command.2

/-- A node with the tag of a leaf performs the effect of that command. -/
theorem execute_tagged {p : Program} {sender : Option String} {n : Node} {tag : String}
    (htag : n.hasTag tag = true) (hflow : (Command.ofTag tag).isControlFlow = false)
    (hdelay : Command.ofTag tag ≠ .delay) (depth : Nat) (w : World) :
    execute p (depth + 1) sender n w = w.perform
      ((Command.ofTag tag).effect (p.start.later w.elapsed) (w.scope sender) n) := by
  rw [← Command.ofTag_of_hasTag htag] at hflow hdelay ⊢
  exact step_leaf hflow hdelay

end HandlerScript
