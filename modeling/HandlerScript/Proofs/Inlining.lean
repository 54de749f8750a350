import HandlerScript.Proofs.Effect.Reading
import HandlerScript.Proofs.Run.Agree
import HandlerScript.Proofs.Template

/-! A call means what the body of its handler means.

    A call whose handler is named without references can be replaced by a sequence of the handler's
    commands, wherever it stands in a tree: in branches and cases, in loops, in guarded blocks, or where
    it is never run. Neither a call nor a sequence is a part that other commands look for, so all other
    commands find the same parts as before, and the replaced ones run the same commands one level
    deeper. The two trees therefore agree at every depth. -/

namespace HandlerScript

/-- The second tree is the first with some of its calls replaced by sequences of the commands that
    they call. -/
inductive Node.Inlines (registry : Registry) : Node → Node → Prop
  | node {n n' : Node} : n'.tag = n.tag → n'.attributes = n.attributes → n'.text = n.text →
      List.Forall₂ (Inlines registry) n.children n'.children → Inlines registry n n'
  | call {n n' : Node} {text : String} {h : Handler} : n.hasTag "Call" = true →
      n.attrOf? ["handler", "name"] = some text → '\x7b' ∉ text.toList →
      registry.get? (Text.trim text) = some h → n'.hasTag "Sequence" = true →
      n'.children = h.body → Inlines registry n n'

namespace Node

/-- A node with a tag that is no part is none, however the tag is spelled. -/
theorem not_part {n : Node} {word : String} (hn : n.hasTag word = true)
    (hword : ∀ tag ∈ partTags, Text.sameLetters word tag = false) :
    ∀ tag ∈ partTags, n.hasTag tag = false := by
  intro tag htag
  rw [hasTag_of_hasTag hn]
  exact hword tag htag

theorem call_not_part {n : Node} (hn : n.hasTag "Call" = true) :
    ∀ tag ∈ partTags, n.hasTag tag = false :=
  not_part hn (by decide +kernel)

theorem sequence_not_part {n : Node} (hn : n.hasTag "Sequence" = true) :
    ∀ tag ∈ partTags, n.hasTag tag = false :=
  not_part hn (by decide +kernel)

theorem keepsParts_inlines (registry : Registry) : KeepsParts (Inlines registry) where
  hasTag {c c'} h tag htag := by
    cases h with
    | node hsame _ _ _ => exact hasTag_congr hsame tag
    | call hcall _ _ _ hseq _ =>
      rw [sequence_not_part hseq tag htag, call_not_part hcall tag htag]
  paired {c c'} h tag htag hpart := by
    cases h with
    | node _ hattr _ hchildren => exact ⟨attr?_congr hattr, hchildren⟩
    | call hcall _ _ _ _ _ =>
      rw [call_not_part hcall tag htag] at hpart
      cases hpart

end Node

theorem Command.ofTag_call {node : Node} (h : node.hasTag "Call" = true) :
    Command.ofTag node.tag = .call :=
  ofTag_of_hasTag h

theorem Command.ofTag_sequence {node : Node} (h : node.hasTag "Sequence" = true) :
    Command.ofTag node.tag = .sequence :=
  ofTag_of_hasTag h

/-- A call that names its handler without references runs the commands of the handler. -/
theorem step_call_plain {p : Program} {run : Runner} {sender : Option String} {n : Node} {w : World}
    {text : String} {h : Handler} (hcall : n.hasTag "Call" = true)
    (htext : n.attrOf? ["handler", "name"] = some text) (hplain : '\x7b' ∉ text.toList)
    (hh : p.registry.get? (Text.trim text) = some h) :
    step p run sender n w = runAll (run sender) h.body w := by
  have hattr : (w.scope sender).attrOf? n ["handler", "name"] = some text := by
    rw [Scope.attrOf?_plain, htext]
    intro t ht
    rw [htext] at ht
    cases ht
    exact hplain
  rw [step_call (Command.ofTag_call hcall), call, hattr]
  dsimp only
  rw [hh]

/-- The two trees agree at every depth. -/
theorem execute_agree_inlines (p : Program) : ∀ (depth : Nat) (sender : Option String)
    {n n' : Node}, n.Inlines p.registry n' → ∀ w : World,
      (execute p depth sender n w).Agree Eq False (execute p depth sender n' w)
  | 0, _, _, _, _, _ => .tooDeep
  | depth + 1, sender, n, n', h, w => by
    cases h with
    | node htag hattr htext hchildren =>
      have hpaired : n.Paired (Node.Inlines p.registry) n' := ⟨Node.attr?_congr hattr, hchildren⟩
      have hreads : n.ReadsAs n' := .of_eq hattr htext
      refine step_agree mirrors_eq (Node.keepsParts_inlines p.registry) rfl hpaired (by rw [htag])
        ?_ ?_ (handlersAgree_self p.registry fun _ _ _ => .refl _ _) rfl
      · rw [Effect.effect_readsAs hreads (.refl _) _ fun _ => htag]
        exact .refl _ _
      · rintro c c' hc w _ rfl
        exact execute_agree_inlines p depth sender hc w
    | call hcall htext hplain hh hseq hbody =>
      have hn : execute p (depth + 1) sender n w = _ := step_call_plain hcall htext hplain hh
      have hn' : execute p (depth + 1) sender n' w = _ := step_sequence (Command.ofTag_sequence hseq)
      rw [hn, hn', hbody]
      exact .refl _ _

/-- Replacing calls by the commands that they call changes nothing: at every depth the two trees end
    alike, with the same result and in the same world, or both do not end. -/
theorem execute_inlines (p : Program) (n n' : Node) (h : n.Inlines p.registry n')
    (sender : Option String) (w : World) (depth : Nat) :
    execute p depth sender n' w = execute p depth sender n w :=
  (execute_agree_inlines p depth sender h w).eq

/-- A program with one handler, which sets a variable and faults. -/
def Program.fragile : Program :=
  { registry := Registry.register {}
      ⟨"Go", [{ tag := "Clear", attributes := Table.ofList [("var", "x")] }, { tag := "Throw" }]⟩ }

/-- A guarded block around one command. -/
def Node.guarding (c : Node) : Node :=
  { tag := "TryCatch"
    children := [{ tag := "Try", children := [c] }, { tag := "Catch", children := [{ tag := "Log" }] }] }

/-- A call of the handler `Go`. -/
def Node.calling : Node := { tag := "CALL", attributes := Table.ofList [("name", " Go ")] }

/-- The commands of the handler `Go` in a sequence. -/
def Node.unfolded : Node :=
  { tag := "Sequence"
    children := [{ tag := "Clear", attributes := Table.ofList [("var", "x")] }, { tag := "Throw" }] }

theorem calling_inlines : Node.calling.guarding.Inlines Program.fragile.registry
    Node.unfolded.guarding := by
  have hlog : Node.Inlines Program.fragile.registry { tag := "Log" } { tag := "Log" } :=
    .node rfl rfl rfl .nil
  have htext : Node.calling.attrOf? ["handler", "name"] = some " Go " := rfl
  have hgo : Program.fragile.registry.get? (Text.trim " Go ") =
      some ⟨"Go", Node.unfolded.children⟩ := rfl
  have hcall : Node.calling.Inlines Program.fragile.registry .unfolded :=
    .call (by decide +kernel) htext (by decide +kernel) hgo (by decide +kernel) rfl
  exact .node rfl rfl rfl (.cons (.node rfl rfl rfl (.cons hcall .nil))
    (.cons (.node rfl rfl rfl (.cons hlog .nil)) .nil))

/-- A call in a guarded block, and the commands that it calls in its place: both clear the variable,
    fault, and are caught. -/
theorem execute_inlines_guarded :
    Node.calling.guarding.Inlines Program.fragile.registry Node.unfolded.guarding ∧
    (∃ w', execute .fragile 3 none Node.calling.guarding {} = .done w' ∧
      w'.store.get? "error" = some (.str "Error")) ∧
    ∀ depth, execute .fragile depth none Node.unfolded.guarding {} =
      execute .fragile depth none Node.calling.guarding {} :=
  ⟨calling_inlines, ⟨_, rfl, rfl⟩,
    execute_inlines .fragile Node.calling.guarding Node.unfolded.guarding calling_inlines none {}⟩

end HandlerScript
