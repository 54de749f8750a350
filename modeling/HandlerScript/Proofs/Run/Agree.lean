import HandlerScript.Proofs.Node.Paired
import HandlerScript.Proofs.Run.Step

/-! Two runs side by side.

    `r.Agree W D r'` says that two runs end alike: both well or both in the same fault, in worlds that
    `W` relates, or both not at all. If `D` holds, the first may also run out of depth where the second
    does not. There is one rule for each way of putting runs together, and `step_agree` joins them: two
    commands agree if they are the same command on paired nodes, and the nodes that they hand on agree,
    those below them and those of the handlers. -/

namespace HandlerScript

namespace Run

/-- The runs end alike, in worlds that `W` relates; the first may be cut short only if `D`. -/
inductive Agree (W : World → World → Prop) (D : Prop) : Run → Run → Prop
  | done {w w' : World} : W w w' → Agree W D (.done w) (.done w')
  | fault {f : Fault} {w w' : World} : W w w' → Agree W D (.fault f w) (.fault f w')
  | tooDeep : Agree W D .tooDeep .tooDeep
  | deeper (r : Run) : D → Agree W D .tooDeep r

namespace Agree

variable {W : World → World → Prop} {D : Prop} {r r' : Run}

theorem andThen {next next' : World → Run} (h : r.Agree W D r')
    (hnext : ∀ w w', W w w' → (next w).Agree W D (next' w')) :
    (r.andThen next).Agree W D (r'.andThen next') := by
  cases h with
  | done hw => exact hnext _ _ hw
  | fault hw => exact .fault hw
  | tooDeep => exact .tooDeep
  | deeper r hd => exact .deeper _ hd

theorem mono {W' : World → World → Prop} (h : r.Agree W D r') (hW : ∀ w w', W w w' → W' w w') :
    r.Agree W' D r' := by
  cases h with
  | done hw => exact .done (hW _ _ hw)
  | fault hw => exact .fault (hW _ _ hw)
  | tooDeep => exact .tooDeep
  | deeper r hd => exact .deeper _ hd

theorem refl (D : Prop) (r : Run) : r.Agree Eq D r := by
  cases r with
  | done w => exact .done rfl
  | fault f w => exact .fault rfl
  | tooDeep => exact .tooDeep

/-- Runs that agree up to equal worlds, with none cut short, are equal. -/
theorem eq (h : r.Agree Eq False r') : r' = r := by
  cases h with
  | done hw => rw [hw]
  | fault hw => rw [hw]
  | tooDeep => rfl
  | deeper r hd => exact hd.elim

/-- A run that agrees with one that ends up to equal worlds is equal to it. -/
theorem eq_of_ne (h : r.Agree Eq D r') (hr : r ≠ .tooDeep) : r' = r := by
  cases h with
  | done hw => rw [hw]
  | fault hw => rw [hw]
  | tooDeep => rfl
  | deeper r hd => exact absurd rfl hr

end Agree

end Run

/-- Related worlds answer alike: texts resolve to the same, it is equally late, the same events are
    pending. They stay related when the same is done to both. -/
structure Mirrors (W : World → World → Prop) : Prop where
  resolve : ∀ {w w'}, W w w' → ∀ (sender : Option String) (text : String),
    (w'.scope sender).resolve text = (w.scope sender).resolve text
  elapsed : ∀ {w w'}, W w w' → w'.elapsed = w.elapsed
  events : ∀ {w w'}, W w w' → w'.host.pump.1 = w.host.pump.1
  set : ∀ {w w'} (name : String) (value : Scalar), W w w' → W (w.set name value) (w'.set name value)
  log : ∀ {w w'} (level : Level) (message : String), W w w' →
    W (w.log level message) (w'.log level message)
  pump : ∀ {w w'}, W w w' → W { w with host := w.host.pump.2 } { w' with host := w'.host.pump.2 }
  wait : ∀ {w w'} (ms : Nat), W w w' →
    W { w with elapsed := w.elapsed + ms } { w' with elapsed := w'.elapsed + ms }

theorem mirrors_eq : Mirrors Eq where
  resolve h _ _ := by rw [h]
  elapsed h := by rw [h]
  events h := by rw [h]
  set _ _ h := by rw [h]
  log _ _ h := by rw [h]
  pump h := by rw [h]
  wait _ h := by rw [h]

section Rules

variable {W : World → World → Prop} {D : Prop} {R : Node → Node → Prop}

/-! ### Sequences and loops -/

theorem runAll_agree {run run' : Node → World → Run}
    (hrun : ∀ c c', R c c' → ∀ w w', W w w' → (run c w).Agree W D (run' c' w'))
    {ns ns' : List Node} (h : List.Forall₂ R ns ns') :
    ∀ {w w'}, W w w' → (runAll run ns w).Agree W D (runAll run' ns' w') := by
  induction h with
  | nil => exact fun hw => .done hw
  | cons hc _ ih => exact fun hw => (hrun _ _ hc _ _ hw).andThen fun _ _ hw' => ih hw'

theorem repeatWhile_agree {holds holds' : World → Bool} {stopped stopped' : World → World}
    {body body' : World → Run} (hholds : ∀ w w', W w w' → holds' w' = holds w)
    (hstopped : ∀ w w', W w w' → W (stopped w) (stopped' w'))
    (hbody : ∀ w w', W w w' → (body w).Agree W D (body' w')) :
    ∀ n {w w'}, W w w' →
      (repeatWhile holds stopped body n w).Agree W D (repeatWhile holds' stopped' body' n w')
  | 0, w, w', hw => by
    unfold repeatWhile
    rw [hholds w w' hw]
    split
    · exact .done (hstopped w w' hw)
    · exact .done hw
  | n + 1, w, w', hw => by
    unfold repeatWhile
    rw [hholds w w' hw]
    split
    · exact (hbody w w' hw).andThen fun _ _ hw' =>
        repeatWhile_agree hholds hstopped hbody n hw'
    · exact .done hw

theorem forCount_agree {body body' : Nat → World → Run}
    (hbody : ∀ i w w', W w w' → (body i w).Agree W D (body' i w')) :
    ∀ n i {w w'}, W w w' → (forCount body n i w).Agree W D (forCount body' n i w')
  | 0, _, _, _, hw => .done hw
  | n + 1, i, w, w', hw =>
    (hbody i w w' hw).andThen fun _ _ hw' => forCount_agree hbody n (i + 1) hw'

theorem forItems_agree {body body' : Nat → String → World → Run}
    (hbody : ∀ i t w w', W w w' → (body i t w).Agree W D (body' i t w')) :
    ∀ i ts {w w'}, W w w' → (forItems body i ts w).Agree W D (forItems body' i ts w')
  | _, [], _, _, hw => .done hw
  | i, t :: ts, w, w', hw =>
    (hbody i t w w' hw).andThen fun _ _ hw' => forItems_agree hbody (i + 1) ts hw'

/-! ### Commands on paired nodes -/

variable {all all' : List Node → World → Run} {n n' : Node} {s s' : Scope} {w w' : World}

/-- Corresponding bodies agree. -/
def BodiesAgree (W : World → World → Prop) (D : Prop) (R : Node → Node → Prop)
    (all all' : List Node → World → Run) : Prop :=
  ∀ ns ns', List.Forall₂ R ns ns' → ∀ w w', W w w' → (all ns w).Agree W D (all' ns' w')

theorem forEach_agree (hW : Mirrors W) (hall : BodiesAgree W D R all all')
    (hs : ∀ text, s'.resolve text = s.resolve text) (h : n.Paired R n') (hw : W w w') :
    (forEach s all n w).Agree W D (forEach s' all' n' w') := by
  have round : ∀ (index item : String) (a b : Scalar) w w', W w w' →
      (all n.children ((w.set index a).set item b)).Agree W D
        (all' n'.children ((w'.set index a).set item b)) :=
    fun index item a b w w' hw => hall _ _ h.children _ _ (hW.set item b (hW.set index a hw))
  unfold forEach
  rw [attrOf?_paired hs h, attr?_paired hs h, attr?_paired hs h, attrOf?_paired hs h]
  dsimp only
  split
  · exact forCount_agree (fun i => round _ _ (.int (Int64.ofNat i)) (.int (Int64.ofNat i))) _ _ hw
  · exact forItems_agree (fun i t => round _ _ (.int (Int64.ofNat i)) (.str t)) _ _ hw

theorem whileLoop_agree (hW : Mirrors W) (hall : BodiesAgree W D R all all') (limits : Limits)
    (sender : Option String) (h : n.Paired R n') (hw : W w w') :
    (whileLoop limits sender all n w).Agree W D (whileLoop limits sender all' n' w') := by
  refine repeatWhile_agree (fun w w' hw => ?_) (fun w w' hw => ?_) (hall _ _ h.children) _ hw
  · exact conditionHolds_paired (hW.resolve hw sender) h
  · exact hW.log _ _ hw

theorem withFinally_agree {last last' : List Node} {r r' : Run}
    (hlast : ∀ w w', W w w' → (all last w).Agree W D (all' last' w')) (hr : r.Agree W D r') :
    (withFinally all last r).Agree W D (withFinally all' last' r') := by
  cases hr with
  | done hw => exact hlast _ _ hw
  | fault hw => exact (hlast _ _ hw).andThen fun _ _ hw' => .fault hw'
  | tooDeep => exact .tooDeep
  | deeper r hd => exact .deeper _ hd

theorem errorVariable_paired (limits : Limits) (hs : ∀ text, s'.resolve text = s.resolve text)
    (h : n.Paired R n') : errorVariable limits s' n' = errorVariable limits s n := by
  rw [errorVariable, errorVariable, attrOf?_paired hs h]

theorem tryCatch_agree (hW : Mirrors W) (hR : Node.KeepsParts R) (hall : BodiesAgree W D R all all')
    (limits : Limits) (hs : ∀ text, s'.resolve text = s.resolve text) (h : n.Paired R n')
    (hw : W w w') : (tryCatch limits s all n w).Agree W D (tryCatch limits s' all' n' w') := by
  have htry := hall _ _ (tryBody_forall₂ hR h) w w' hw
  unfold tryCatch
  dsimp only
  refine withFinally_agree (hall _ _ (bodyOf_forall₂ hR (by decide) h)) ?_
  generalize all (tryBody n) w = r at htry
  generalize all' (tryBody n') w' = r' at htry
  cases htry with
  | done hw => exact .done hw
  | fault hw =>
    rw [errorVariable_paired limits hs h]
    exact hall _ _ (bodyOf_forall₂ hR (by decide) h) _ _ (hW.set _ _ (hW.log _ _ hw))
  | tooDeep => exact .tooDeep
  | deeper r hd => exact .deeper _ hd

/-! ### Other handlers -/

/-- The same names are registered in both programs, and what stands under them agrees. -/
def HandlersAgree (W : World → World → Prop) (D : Prop) (registry registry' : Registry)
    (run run' : Runner) : Prop :=
  ∀ (sender : Option String) (name : String),
    Option.Rel (fun h h' => ∀ w w', W w w' →
      (runAll (run sender) h.body w).Agree W D (runAll (run' sender) h'.body w'))
      (registry.get? name) (registry'.get? name)

variable {registry registry' : Registry} {run run' : Runner} {sender : Option String}

/-- If commands agree under two runners, so do the handlers of one program. -/
theorem handlersAgree_of_runs (registry : Registry)
    (h : ∀ sender node w w', W w w' → (run sender node w).Agree W D (run' sender node w')) :
    HandlersAgree W D registry registry run run' := by
  intro sender name
  cases registry.get? name with
  | none => exact .none
  | some handler =>
    have hrun : ∀ c c', c = c' → ∀ w w', W w w' →
        (run sender c w).Agree W D (run' sender c' w') := by
      rintro c _ rfl w w' hw
      exact h sender c w w' hw
    exact .some fun w w' hw => runAll_agree hrun (List.forall₂_refl handler.body) hw

theorem handlersAgree_self (registry : Registry)
    (h : ∀ sender node w, (run sender node w).Agree Eq D (run' sender node w)) :
    HandlersAgree Eq D registry registry run run' := by
  refine handlersAgree_of_runs registry ?_
  rintro sender node w _ rfl
  exact h sender node w

theorem call_agree (hW : Mirrors W) (hhandlers : HandlersAgree W D registry registry' run run')
    (hs : ∀ text, s'.resolve text = s.resolve text) (h : n.Paired R n') (hw : W w w') :
    (call registry s (runAll (run sender)) n w).Agree W D
      (call registry' s' (runAll (run' sender)) n' w') := by
  unfold call
  rw [attrOf?_paired hs h]
  split
  · exact .done hw
  · rename_i text _
    have hcallee := hhandlers sender (Text.trim text)
    dsimp only
    generalize registry.get? (Text.trim text) = o at hcallee
    generalize registry'.get? (Text.trim text) = o' at hcallee
    cases hcallee with
    | none => exact .done (hW.log _ _ hw)
    | some hbody => exact hbody w w' hw

/-- Invocations that agree have the same outcome and leave related worlds. -/
theorem invokeWith_agree (hW : Mirrors W) (hhandlers : HandlersAgree W D registry registry' run run')
    (name : String) (sender : Option String) (hw : W w w') :
    (∀ x, invokeWith registry run name sender w = some x →
      ∃ y, invokeWith registry' run' name sender w' = some y ∧ y.1 = x.1 ∧ W x.2 y.2) ∧
    (invokeWith registry run name sender w = none →
      invokeWith registry' run' name sender w' = none ∨ D) := by
  have hhandler := hhandlers sender name
  unfold invokeWith
  generalize registry.get? name = o at hhandler
  generalize registry'.get? name = o' at hhandler
  cases hhandler with
  | none =>
    refine ⟨fun x hx => ?_, fun h => nomatch h⟩
    cases hx
    exact ⟨_, rfl, rfl, hW.log _ _ hw⟩
  | @some h h' hbody =>
    have hrun := hbody w w' hw
    dsimp only
    generalize runAll (run sender) h.body w = r at hrun
    generalize runAll (run' sender) h'.body w' = r' at hrun
    cases hrun with
    | done hw' =>
      refine ⟨fun x hx => ?_, fun h => nomatch h⟩
      cases hx
      exact ⟨_, rfl, rfl, hw'⟩
    | fault hw' =>
      refine ⟨fun x hx => ?_, fun h => nomatch h⟩
      cases hx
      exact ⟨_, rfl, rfl, hW.log _ _ hw'⟩
    | tooDeep => exact ⟨fun x hx => (nomatch hx), fun _ => .inl rfl⟩
    | deeper r hd => exact ⟨fun x hx => (nomatch hx), fun _ => .inr hd⟩

/-- If neither run is cut short, invocations correspond. -/
theorem invokeWith_rel (hW : Mirrors W)
    (hhandlers : HandlersAgree W False registry registry' run run') (name : String)
    (sender : Option String) (hw : W w w') :
    Option.Rel (fun x y => y.1 = x.1 ∧ W x.2 y.2) (invokeWith registry run name sender w)
      (invokeWith registry' run' name sender w') := by
  obtain ⟨hsome, hnone⟩ := invokeWith_agree hW hhandlers name sender hw
  cases hx : invokeWith registry run name sender w with
  | some x =>
    obtain ⟨y, hy, hxy⟩ := hsome x hx
    rw [hy]
    exact .some hxy
  | none =>
    rw [(hnone hx).resolve_right id]
    exact .none

theorem handleAll_agree (hW : Mirrors W)
    (hhandlers : HandlersAgree W D registry registry' run run') :
    ∀ (events : List Event) {w w'}, W w w' →
      (handleAll registry run events w).Agree W D (handleAll registry' run' events w')
  | [], _, _, hw => .done hw
  | e :: es, w, w', hw => by
    obtain ⟨hsome, hnone⟩ := invokeWith_agree hW hhandlers e.handler e.sender hw
    unfold handleAll
    cases hx : invokeWith registry run e.handler e.sender w with
    | some x =>
      obtain ⟨y, hy, -, hxy⟩ := hsome x hx
      rw [hy]
      exact handleAll_agree hW hhandlers es hxy
    | none =>
      rcases hnone hx with hy | hd
      · rw [hy]
        exact .tooDeep
      · exact .deeper _ hd

theorem waitUntil_agree (hW : Mirrors W) {p p' : Program} (hlimits : p'.limits = p.limits)
    (hhandlers : HandlersAgree W D p.registry p'.registry run run') (deadline : Nat) :
    ∀ (rounds : Nat) {w w'}, W w w' →
      (waitUntil p run deadline rounds w).Agree W D (waitUntil p' run' deadline rounds w')
  | 0, _, _, hw => .done hw
  | rounds + 1, w, w', hw => by
    unfold waitUntil pumpEvents
    dsimp only
    rw [hW.events hw, hlimits]
    refine (handleAll_agree hW hhandlers _ (hW.pump hw)).andThen fun w₁ w₁' hw₁ => ?_
    rw [hW.elapsed hw₁]
    split
    · exact .done hw₁
    · have hwait := hW.wait (min (max p.limits.pumpInterval 1) (deadline - w₁.elapsed)) hw₁
      rw [hW.elapsed hw₁] at hwait
      exact waitUntil_agree hW hlimits hhandlers deadline rounds hwait

end Rules

/-! ### All commands -/

/-- Two runs of the same command agree on paired nodes if their own effects do, and so do the nodes
    below them and the handlers of the two programs. -/
theorem step_agree {W : World → World → Prop} {D : Prop} {R : Node → Node → Prop} {p p' : Program}
    {run run' : Runner} {sender : Option String} {n n' : Node} {w w' : World} (hW : Mirrors W)
    (hR : Node.KeepsParts R) (hlimits : p'.limits = p.limits) (h : n.Paired R n')
    (hcommand : Command.ofTag n'.tag = Command.ofTag n.tag)
    (hleaf : (w.perform ((Command.ofTag n.tag).effect (p.start.later w.elapsed) (w.scope sender)
      n)).Agree W D (w'.perform ((Command.ofTag n.tag).effect (p'.start.later w'.elapsed)
        (w'.scope sender) n')))
    (hbelow : ∀ c c', R c c' → ∀ w w', W w w' → (run sender c w).Agree W D (run' sender c' w'))
    (hhandlers : HandlersAgree W D p.registry p'.registry run run') (hw : W w w') :
    (step p run sender n w).Agree W D (step p' run' sender n' w') := by
  have hs := hW.resolve hw sender
  have hall : BodiesAgree W D R (runAll (run sender)) (runAll (run' sender)) :=
    fun _ _ hns _ _ hw => runAll_agree hbelow hns hw
  rcases (Command.ofTag n.tag).cases_step with
    hc | hc | hc | hc | hc | hc | hc | hc | ⟨hflow, hdelay⟩
  · rw [step_branch hc, step_branch (hcommand.trans hc)]
    exact hall _ _ (branchBody_forall₂ hs hR h) w w' hw
  · rw [step_switch hc, step_switch (hcommand.trans hc)]
    exact hall _ _ (switchBody_forall₂ hs hR h) w w' hw
  · rw [step_forEach hc, step_forEach (hcommand.trans hc)]
    exact forEach_agree hW hall hs h hw
  · rw [step_whileLoop hc, step_whileLoop (hcommand.trans hc), hlimits]
    exact whileLoop_agree hW hall p.limits sender h hw
  · rw [step_tryCatch hc, step_tryCatch (hcommand.trans hc), hlimits]
    exact tryCatch_agree hW hR hall p.limits hs h hw
  · rw [step_call hc, step_call (hcommand.trans hc)]
    exact call_agree hW hhandlers hs h hw
  · rw [step_sequence hc, step_sequence (hcommand.trans hc)]
    exact hall _ _ h.children w w' hw
  · rw [step_delay hc, step_delay (hcommand.trans hc)]
    unfold delay
    rw [attrOf?_paired hs h, hW.elapsed hw, hlimits]
    exact waitUntil_agree hW hlimits hhandlers _ _ hw
  · rw [step_leaf hflow hdelay, step_leaf (hcommand ▸ hflow) (hcommand ▸ hdelay), hcommand]
    exact hleaf

end HandlerScript
