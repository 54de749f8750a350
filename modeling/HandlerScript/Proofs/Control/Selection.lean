import HandlerScript.Proofs.Node.Paired
import HandlerScript.Proofs.Run.Step
import Mathlib.Logic.ExistsUnique

/-! A `Switch` runs the first `Case` that matches, wherever the others stand.

    All values are resolved in the world at the start, so a `Switch` settles on one body before anything
    runs: that of the first `Case` whose label is the label of the `Switch`, else that of the first
    `Default`, else none. The choice reads no more of the children than, for one label, the `Case`s of
    that label in order, and the `Default`s in order. So children that are put in another order are
    chosen from alike, as long as those orders are kept. -/

namespace HandlerScript

/-- The text by which a `Switch` and its `Case`s are compared. -/
def Scope.label (s : Scope) (n : Node) : String := Text.trim (s.attrText n "value")

namespace Node

/-- The body that a `Switch` settles on: of the first `Case` of its label; without one, of the first
    `Default`; without either, no commands. -/
inductive Selects (s : Scope) (n : Node) : List Node → Prop
  | matching {before after : List Node} {part : Node} : n.children = before ++ part :: after →
      part.hasTag "Case" = true → s.label part = s.label n →
      (∀ c ∈ before, c.hasTag "Case" = true → s.label c ≠ s.label n) → Selects s n part.children
  | otherwise {before after : List Node} {part : Node} :
      (∀ c ∈ n.children, c.hasTag "Case" = true → s.label c ≠ s.label n) →
      n.children = before ++ part :: after → part.hasTag "Default" = true →
      (∀ c ∈ before, c.hasTag "Default" = false) → Selects s n part.children
  | nothing : (∀ c ∈ n.children, c.hasTag "Case" = true → s.label c ≠ s.label n) →
      (∀ c ∈ n.children, c.hasTag "Default" = false) → Selects s n []

/-- The `Case`s of a label, in order. -/
def casesOf (s : Scope) (n : Node) (label : String) : List Node :=
  (n.childrenTagged "Case").filter fun c => s.label c == label

/-- The second node is the first with its children in another order, in which `Case`s of one label
    stand as they stood to each other, and so do the `Default`s. -/
structure Reorders (s : Scope) (n n' : Node) : Prop where
  tag : n'.tag = n.tag
  attributes : n'.attributes = n.attributes
  children : n'.children.Perm n.children
  cases : ∀ label, n'.casesOf s label = n.casesOf s label
  defaults : n'.childrenTagged "Default" = n.childrenTagged "Default"

end Node

section Choosing

variable {s : Scope} {n n' : Node} {body : List Node}

/-! ### The choice -/

/-- Whether a child of a `Switch` is a `Case` of its label. -/
def Node.hasMatch (s : Scope) (n c : Node) : Bool := c.hasTag "Case" && s.label c == s.label n

theorem hasMatch_eq_false_iff {c : Node} :
    n.hasMatch s c = false ↔ (c.hasTag "Case" = true → s.label c ≠ s.label n) := by
  simp [Node.hasMatch]

theorem switchBody_eq (s : Scope) (n : Node) : switchBody s n =
    match n.children.find? (n.hasMatch s) with
    | some part => part.children
    | none => bodyOf n "Default" := by
  have hfind : (n.childrenTagged "Case").find? (fun c => s.label c == s.label n) =
      n.children.find? (n.hasMatch s) := by
    rw [Node.childrenTagged, List.find?_filter]
    refine congrArg (List.find? · _) (funext fun c => ?_)
    rw [Bool.decide_and, Bool.decide_eq_true, Bool.decide_eq_true, Node.hasMatch]
  rw [← hfind]
  rfl

theorem no_match_iff : n.children.find? (n.hasMatch s) = none ↔
    ∀ c ∈ n.children, c.hasTag "Case" = true → s.label c ≠ s.label n := by
  rw [List.find?_eq_none]
  exact forall₂_congr fun c _ => by rw [Bool.not_eq_true, hasMatch_eq_false_iff]

theorem no_default_iff :
    n.child? "Default" = none ↔ ∀ c ∈ n.children, c.hasTag "Default" = false := by
  rw [Node.child?, List.find?_eq_none]
  exact forall₂_congr fun c _ => by rw [Bool.not_eq_true]

theorem Node.Selects.switchBody_eq (h : n.Selects s body) : switchBody s n = body := by
  rw [HandlerScript.switchBody_eq]
  cases h with
  | @matching before after part hn htag hlabel hbefore =>
    have hfind : n.children.find? (n.hasMatch s) = some part := by
      refine List.find?_eq_some_iff_append.2 ⟨?_, before, after, hn, fun c hc => ?_⟩
      · simp [Node.hasMatch, htag, hlabel]
      · rw [hasMatch_eq_false_iff.2 (hbefore c hc)]
        rfl
    rw [hfind]
  | @otherwise before after part hnone hn htag hbefore =>
    have hfind : n.child? "Default" = some part := by
      refine List.find?_eq_some_iff_append.2 ⟨htag, before, after, hn, fun c hc => ?_⟩
      rw [hbefore c hc]
      rfl
    rw [no_match_iff.2 hnone]
    simp only [bodyOf, hfind]
  | nothing hnone hdefault =>
    rw [no_match_iff.2 hnone]
    simp only [bodyOf, no_default_iff.2 hdefault]

/-- A `Switch` settles on a body by one of the rules. -/
theorem selects_switchBody (s : Scope) (n : Node) : n.Selects s (switchBody s n) := by
  rw [switchBody_eq]
  cases hcase : n.children.find? (n.hasMatch s) with
  | some part =>
    obtain ⟨hmatch, before, after, hn, hbefore⟩ := List.find?_eq_some_iff_append.1 hcase
    obtain ⟨htag, hlabel⟩ := Bool.and_eq_true_iff.1 hmatch
    refine .matching hn htag (beq_iff_eq.1 hlabel) fun c hc => hasMatch_eq_false_iff.1 ?_
    simpa using hbefore c hc
  | none =>
    have hnone := no_match_iff.1 hcase
    cases hdefault : n.child? "Default" with
    | some part =>
      obtain ⟨htag, before, after, hn, hbefore⟩ := List.find?_eq_some_iff_append.1 hdefault
      simp only [bodyOf, hdefault]
      exact .otherwise hnone hn htag fun c hc => by simpa using hbefore c hc
    | none =>
      simp only [bodyOf, hdefault]
      exact .nothing hnone (no_default_iff.1 hdefault)

/-! ### The order of the children -/

/-- Of the `Case`s only those of the label of the `Switch` are read. -/
theorem find?_hasMatch (s : Scope) (n : Node) :
    n.children.find? (n.hasMatch s) = (n.casesOf s (s.label n)).head? := by
  rw [Node.casesOf, Node.childrenTagged, List.filter_filter, List.head?_filter]
  refine congrArg (List.find? · _) (funext fun c => ?_)
  exact Bool.and_comm _ _

theorem child?_eq_head? (n : Node) (tag : String) : n.child? tag = (n.childrenTagged tag).head? :=
  List.head?_filter.symm

/-- Nodes with the same attributes have the same label. -/
theorem label_congr (h : n'.attributes = n.attributes) : s.label n' = s.label n := by
  rw [Scope.label, Scope.attrText, Scope.attr?, Node.attr?, h]
  rfl

theorem Node.Reorders.switchBody_eq (h : n.Reorders s n') : switchBody s n' = switchBody s n := by
  have hcase : n'.children.find? (n'.hasMatch s) = n.children.find? (n.hasMatch s) := by
    rw [find?_hasMatch, find?_hasMatch, label_congr h.attributes, h.cases]
  have hdefault : bodyOf n' "Default" = bodyOf n "Default" := by
    rw [bodyOf, bodyOf, child?_eq_head?, child?_eq_head?, h.defaults]
  rw [HandlerScript.switchBody_eq, HandlerScript.switchBody_eq, hcase, hdefault]

theorem filter_exchange {p : Node → Bool} {a b : Node} (before after : List Node)
    (h : p a = true → p b = false) :
    (before ++ b :: a :: after).filter p = (before ++ a :: b :: after).filter p := by
  rw [List.filter_append, List.filter_append]
  cases ha : p a with
  | false => simp [List.filter_cons, ha]
  | true => simp [ha, h ha]

/-- Two children next to each other that are neither `Case`s of one label nor both `Default`s can
    change places. -/
theorem reorders_exchange {before after : List Node} {a b : Node}
    (hn : n.children = before ++ a :: b :: after)
    (hcase : a.hasTag "Case" = true → b.hasTag "Case" = true → s.label a ≠ s.label b)
    (hdefault : a.hasTag "Default" = true → b.hasTag "Default" = false) :
    n.Reorders s { n with children := before ++ b :: a :: after } where
  tag := rfl
  attributes := rfl
  children := by
    rw [hn]
    exact (List.Perm.swap a b after).append_left before
  cases label := by
    simp only [Node.casesOf, Node.childrenTagged, hn, List.filter_filter]
    refine filter_exchange before after fun ha => Bool.and_eq_false_imp.2 fun hb => ?_
    obtain ⟨halabel, hacase⟩ := Bool.and_eq_true_iff.1 ha
    refine Bool.eq_false_iff.2 fun hbcase => hcase hacase hbcase ?_
    rw [beq_iff_eq.1 halabel, beq_iff_eq.1 hb]
  defaults := by
    rw [Node.childrenTagged, Node.childrenTagged, hn]
    exact filter_exchange before after hdefault

end Choosing

/-- A `Switch` settles on exactly one body by the rules, and comes to what that body comes to. Any
    order of its children in which the `Case`s of one label and the `Default`s stand as before gives
    the same result. -/
theorem switch_runs_first_match (p : Program) (sender : Option String) (n : Node) (w : World)
    (htag : n.hasTag "Switch" = true) :
    (∃! body, n.Selects (w.scope sender) body) ∧
    (∀ body, n.Selects (w.scope sender) body → ∀ depth,
      execute p (depth + 1) sender n w = runAll (execute p depth sender) body w) ∧
    ∀ n', n.Reorders (w.scope sender) n' → ∀ depth,
      execute p depth sender n' w = execute p depth sender n w := by
  have hswitch : Command.ofTag n.tag = .switch := Command.ofTag_of_hasTag htag
  refine ⟨⟨switchBody (w.scope sender) n, selects_switchBody _ n, fun _ h => h.switchBody_eq.symm⟩,
    fun body h depth => ?_, fun n' h depth => ?_⟩
  · rw [execute, step_switch hswitch, h.switchBody_eq]
  · cases depth with
    | zero => rfl
    | succ depth =>
      have hswitch' : Command.ofTag n'.tag = .switch := by rw [h.tag, hswitch]
      rw [execute, step_switch hswitch', step_switch hswitch, h.switchBody_eq]

/-- Empties a variable. -/
def Node.clearing (name : String) : Node where
  tag := "Clear"
  attributes := Table.ofList [("var", name)]

/-- A `Case` or a `Default` that empties a variable. -/
def Node.option (tag value name : String) : Node where
  tag := tag
  attributes := Table.ofList [("value", value)]
  children := [.clearing name]

/-- A `Switch` on a variable whose `Default` stands first, and two of whose `Case`s can match. -/
def Node.choosing (children : List Node) : Node where
  tag := "switch"
  attributes := Table.ofList [("value", " {x} ")]
  children := children

/-- A world in which two variables are alike but for a blank. -/
def World.alike : World where
  store := (Store.set {} "x" (.str "b")).set "y" (.str "b ")

/-- The first of the two `Case`s that match is chosen, and it still is when it changes places with the
    `Default` before it. -/
theorem switch_runs_first_match_repeated :
    let n := Node.choosing [.option "Default" "b" "rest", .option "case" "b" "first",
      .option "Case" "{y}" "second"]
    let n' := Node.choosing [.option "case" "b" "first", .option "Default" "b" "rest",
      .option "Case" "{y}" "second"]
    n.hasTag "Switch" = true ∧ n.Selects (World.alike.scope none) [.clearing "first"] ∧
      n.Reorders (World.alike.scope none) n' ∧
      execute {} 2 none n' World.alike = runAll (execute {} 1 none) [.clearing "first"] World.alike := by
  intro n n'
  have htag : n.hasTag "Switch" = true := by decide +kernel
  have hselects : n.Selects (World.alike.scope none) [.clearing "first"] := by
    have hchildren : n.children = [.option "Default" "b" "rest"] ++
        .option "case" "b" "first" :: [.option "Case" "{y}" "second"] := rfl
    refine .matching hchildren (by decide +kernel) (by decide +kernel) fun c hc hcase => ?_
    cases List.mem_singleton.1 hc
    exact absurd hcase (by decide +kernel)
  have hreorders : n.Reorders (World.alike.scope none) n' := by
    have hchildren : n.children = [] ++
        .option "Default" "b" "rest" :: .option "case" "b" "first" ::
          [.option "Case" "{y}" "second"] := rfl
    exact reorders_exchange hchildren (fun hcase => absurd hcase (by decide +kernel))
      fun _ => by decide +kernel
  obtain ⟨-, hbody, horder⟩ := switch_runs_first_match {} none n World.alike htag
  exact ⟨htag, hselects, hreorders, (horder n' hreorders 2).trans (hbody _ hselects 1)⟩

end HandlerScript
