import HandlerScript.Proofs.Run.Agree
import HandlerScript.Proofs.Run.Meets

/-! Two runs side by side under an invariant.

    Runs often agree only as long as something holds of the world that running never changes: that the
    host adds no commands, or that it knows a widget. Where an invariant holds at the start, it may be
    used all along the two runs. -/

namespace HandlerScript

/-- The worlds are related, and the invariant holds of the first. -/
def Under (I : World → Prop) (W : World → World → Prop) (w w' : World) : Prop := W w w' ∧ I w

variable {W : World → World → Prop} {I : World → Prop} {D : Prop}

theorem Run.Agree.under {r r' : Run} {F : Fault → Prop} (h : r.Agree W D r')
    (hI : r.Meets I F True) : r.Agree (Under I W) D r' := by
  cases h with
  | done hw => exact .done ⟨hw, hI.world_done⟩
  | fault hw => exact .fault ⟨hw, hI.of_fault.2⟩
  | tooDeep => exact .tooDeep
  | deeper r hd => exact .deeper _ hd

theorem Mirrors.under (hW : Mirrors W) (hI : Invariant I) : Mirrors (Under I W) where
  resolve h := hW.resolve h.1
  elapsed h := hW.elapsed h.1
  events h := hW.events h.1
  set name value h := ⟨hW.set name value h.1, hI.set trivial h.2⟩
  log level message h := ⟨hW.log level message h.1, hI.log level message h.2⟩
  pump h := ⟨hW.pump h.1, hI.pump h.2⟩
  wait ms h := ⟨hW.wait ms h.1, hI.wait ms h.2⟩

/-- Effects that agree do so under an invariant. -/
theorem perform_agree_under {w w' : World} {e e' : Effect} (hI : Invariant I)
    (h : (w.perform e).Agree W D (w'.perform e')) (hw : I w) :
    (w.perform e).Agree (Under I W) D (w'.perform e') := by
  have hmeets : (w.perform e).Meets I (fun _ => True) True :=
    perform_meets hI hw trivial fun _ _ => trivial
  exact h.under hmeets

/-- A run agrees with itself under an invariant. -/
theorem execute_agree_self (hI : Invariant I) (p : Program) (depth : Nat) (sender : Option String)
    (node : Node) {w w' : World} (hw : Under I Eq w w') :
    (execute p depth sender node w).Agree (Under I Eq) D (execute p depth sender node w') := by
  obtain ⟨rfl, hw⟩ := hw
  exact (Run.Agree.refl D _).under (execute_keeps_invariant hI node hw)

/-- The handlers of a program agree with themselves under an invariant. -/
theorem handlersAgree_under (hI : Invariant I) (p : Program) (depth : Nat) :
    HandlersAgree (Under I Eq) D p.registry p.registry (execute p depth) (execute p depth) :=
  handlersAgree_of_runs p.registry fun sender node _ _ => execute_agree_self hI p depth sender node

end HandlerScript
