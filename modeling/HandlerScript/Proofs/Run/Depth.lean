import HandlerScript.Proofs.Run.Agree

/-! The depth of a run.

    A depth that is enough for a run stays enough: any greater depth gives the same result. So a run
    that ends has one result, whatever depth it was tried with. The runs of one command at two depths
    agree, except that the one at the smaller depth may be cut short. -/

namespace HandlerScript

variable {p : Program} {n m : Nat} {sender : Option String} {w : World}

theorem execute_agree_succ (p : Program) : ∀ depth sender node w,
    (execute p depth sender node w).Agree Eq True (execute p (depth + 1) sender node w)
  | 0, _, _, _ => .deeper _ trivial
  | depth + 1, sender, node, w => by
    have ih := execute_agree_succ p depth
    refine step_agree mirrors_eq Node.keepsParts_eq rfl node.paired_eq rfl (.refl _ _) ?_
      (handlersAgree_self p.registry ih) rfl
    rintro c _ rfl w _ rfl
    exact ih sender c w

/-- A run that ends gives the same result under any greater depth. -/
theorem execute_mono {node : Node} (h : n ≤ m) (hr : execute p n sender node w ≠ .tooDeep) :
    execute p m sender node w = execute p n sender node w := by
  induction h with
  | refl => rfl
  | @step m _ ih =>
    rw [← ih] at hr ⊢
    exact (execute_agree_succ p m sender node w).eq_of_ne hr

/-- The runs at two depths agree, unless the smaller depth cuts the first short. -/
theorem execute_agree (h : n ≤ m) (sender : Option String) (node : Node) (w : World) :
    (execute p n sender node w).Agree Eq True (execute p m sender node w) := by
  by_cases hr : execute p n sender node w = .tooDeep
  · rw [hr]
    exact .deeper _ trivial
  · rw [execute_mono h hr]
    exact .refl _ _

/-- An invocation that ends gives the same under any greater depth. -/
theorem invoke_mono {name : String} (h : n ≤ m) {x : Outcome × World}
    (hx : invoke p n name sender w = some x) : invoke p m name sender w = some x := by
  obtain ⟨y, hy, houtcome, hworld⟩ := (invokeWith_agree mirrors_eq
    (handlersAgree_self p.registry (execute_agree h)) name sender rfl).1 x hx
  have hyx : y = x := Prod.ext houtcome hworld.symm
  exact hy.trans (congrArg some hyx)

end HandlerScript
