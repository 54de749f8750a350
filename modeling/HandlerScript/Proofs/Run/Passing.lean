import HandlerScript.Proofs.Run.Agree
import HandlerScript.Proofs.Run.Meets

/-! Commands that a run passes through.

    A boundary is a set of commands, each with the sender and the world that it starts with. A run up to a
    boundary goes as any other, but a command of the boundary does not end. So a run that ends passes
    through the boundary exactly if it does not end up to there. If it passes through none of its commands,
    it keeps what all other commands keep. -/

namespace HandlerScript

/-- Commands by what they start with. -/
abbrev Boundary := Option String → Node → World → Prop

/-- Runs a command within a depth, up to a boundary. -/
def executeUpTo (boundary : Boundary) [∀ sender node w, Decidable (boundary sender node w)]
    (p : Program) : Nat → Runner
  | 0 => fun _ _ _ => .tooDeep
  | depth + 1 => fun sender node w =>
    if boundary sender node w then .tooDeep
    else step p (executeUpTo boundary p depth) sender node w

section UpTo

variable {boundary : Boundary} [∀ sender node w, Decidable (boundary sender node w)] {p : Program}

theorem executeUpTo_at {sender : Option String} {node : Node} {w : World}
    (h : boundary sender node w) (depth : Nat) :
    executeUpTo boundary p depth sender node w = .tooDeep := by
  cases depth with
  | zero => rfl
  | succ depth => exact if_pos h

theorem executeUpTo_before {sender : Option String} {node : Node} {w : World}
    (h : ¬ boundary sender node w) (depth : Nat) :
    executeUpTo boundary p (depth + 1) sender node w =
      step p (executeUpTo boundary p depth) sender node w :=
  if_neg h

/-- Without a command on the boundary, a run up to it is the run itself. -/
theorem executeUpTo_eq_execute (h : ∀ sender node w, ¬ boundary sender node w) (depth : Nat) :
    executeUpTo boundary p depth = execute p depth := by
  induction depth with
  | zero => rfl
  | succ depth ih =>
    funext sender node w
    rw [executeUpTo_before (h sender node w), ih]
    rfl

/-- A run up to a boundary with more commands on it is the same, unless it is cut short. -/
theorem executeUpTo_agree {more : Boundary} [∀ sender node w, Decidable (more sender node w)]
    (hmore : ∀ sender node w, boundary sender node w → more sender node w) :
    ∀ depth sender node w, (executeUpTo more p depth sender node w).Agree Eq True
      (executeUpTo boundary p depth sender node w)
  | 0, _, _, _ => .tooDeep
  | depth + 1, sender, node, w => by
    have ih := executeUpTo_agree hmore depth
    by_cases h : more sender node w
    · rw [executeUpTo_at h]
      exact .deeper _ trivial
    · rw [executeUpTo_before h, executeUpTo_before fun hboundary => h (hmore _ _ _ hboundary)]
      refine step_agree mirrors_eq Node.keepsParts_eq rfl node.paired_eq rfl (.refl _ _) ?_
        (handlersAgree_self p.registry ih) rfl
      rintro c _ rfl w _ rfl
      exact ih sender c w

/-- A run up to a boundary keeps what the commands before the boundary keep. -/
theorem executeUpTo_meets {S : Node → Prop} {E : Effect → Prop} {I : World → Prop} (hS : p.Closed S)
    (hI : Stable E I) (hcauses : ∀ node sender w e, S node → I w → ¬ boundary sender node w →
      node.Causes p.limits (w.scope sender) e → E e) :
    ∀ depth {sender node w}, S node → I w →
      (executeUpTo boundary p depth sender node w).Meets I (fun _ => True) True
  | 0, _, _, _, _, _ => .tooDeep trivial
  | depth + 1, sender, node, w, hn, hw => by
    have ih := @executeUpTo_meets S E I hS hI hcauses depth
    by_cases h : boundary sender node w
    · rw [executeUpTo_at h]
      exact .tooDeep trivial
    · rw [executeUpTo_before h]
      exact step_meets hI hI (fun _ h => h) (fun _ h => hI.pump h)
        (fun e => hcauses node sender w e hn hw h) (fun _ _ _ => trivial)
        (fun c hc w => ih (hS.below hn hc)) (fun _ _ _ h _ _ hh c hc w => ih (hS.body hh hc))
        (fun _ _ e _ h hh c hc w hw => ih (hS.body hh hc) hw) hw

end UpTo

/-- Commands that are run in order, with all that their run depends on. -/
structure Start where
  program : Program
  depth : Nat
  sender : Option String
  commands : List Node
  world : World

namespace Start

/-- How the run ends. -/
def result (r : Start) : Run := runAll (execute r.program r.depth r.sender) r.commands r.world

/-- How the run ends up to a boundary. -/
def resultUpTo (r : Start) (boundary : Boundary) [∀ sender node w, Decidable (boundary sender node w)] :
    Run :=
  runAll (executeUpTo boundary r.program r.depth r.sender) r.commands r.world

open Classical in
/-- The run ends, but not if it goes up to the boundary only. -/
def Passes (r : Start) (boundary : Boundary) : Prop :=
  r.result ≠ .tooDeep ∧ r.resultUpTo boundary = .tooDeep

variable {r : Start} {boundary more : Boundary}

theorem resultUpTo_eq_result [∀ sender node w, Decidable (boundary sender node w)]
    (h : ∀ sender node w, ¬ boundary sender node w) : r.resultUpTo boundary = r.result := by
  rw [resultUpTo, executeUpTo_eq_execute h, result]

theorem resultUpTo_agree [∀ sender node w, Decidable (boundary sender node w)]
    [∀ sender node w, Decidable (more sender node w)]
    (hmore : ∀ sender node w, boundary sender node w → more sender node w) :
    (r.resultUpTo more).Agree Eq True (r.resultUpTo boundary) := by
  refine runAll_agree (R := Eq) ?_ (List.forall₂_refl r.commands) rfl
  rintro c _ rfl w _ rfl
  exact executeUpTo_agree hmore r.depth r.sender c w

/-- A run passes only through boundaries with a command on them. -/
theorem Passes.exists (h : r.Passes boundary) : ∃ sender node w, boundary sender node w := by
  classical
  by_contra hnone
  push Not at hnone
  exact h.1 ((resultUpTo_eq_result hnone).symm.trans h.2)

theorem Passes.mono (h : r.Passes boundary)
    (hmore : ∀ sender node w, boundary sender node w → more sender node w) : r.Passes more := by
  classical
  have hagree : (r.resultUpTo more).Agree Eq True (r.resultUpTo boundary) := resultUpTo_agree hmore
  refine ⟨h.1, ?_⟩
  by_contra hends
  exact hends ((hagree.eq_of_ne hends).symm.trans h.2)

/-- A run that passes through no command of a boundary keeps what all other commands keep. -/
theorem passes_or_meets {S : Node → Prop} {E : Effect → Prop} {I : World → Prop}
    (hS : r.program.Closed S) (hI : Stable E I) (hcommands : ∀ c ∈ r.commands, S c)
    (hcauses : ∀ node sender w e, S node → I w → ¬ boundary sender node w →
      node.Causes r.program.limits (w.scope sender) e → E e) (hw : I r.world) :
    r.Passes boundary ∨ r.result.Meets I (fun _ => True) True := by
  classical
  have hmeets : (r.resultUpTo boundary).Meets I (fun _ => True) True :=
    runAll_meets (fun c hc _ hw => executeUpTo_meets hS hI hcauses r.depth (hcommands c hc) hw) hw
  have hagree : (r.resultUpTo boundary).Agree Eq True r.result := by
    have hnone : r.resultUpTo (fun _ _ _ => False) = r.result :=
      resultUpTo_eq_result fun _ _ _ => id
    rw [← hnone]
    exact resultUpTo_agree fun _ _ _ => False.elim
  by_cases hresult : r.result = .tooDeep
  · rw [hresult]
    exact .inr (.tooDeep trivial)
  · by_cases hupTo : r.resultUpTo boundary = .tooDeep
    · exact .inl ⟨hresult, hupTo⟩
    · rw [hagree.eq_of_ne hupTo]
      exact .inr hmeets

end Start

end HandlerScript
