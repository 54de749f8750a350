import HandlerScript.Proofs.Run.Ending

/-! The `ElseIf`s of an `If` are `If`s inside its `Else`.

    An `If` has a list of branches: itself with its `Then`, or with the children that are no parts, and
    each `ElseIf` with its children. It hands on the body of the first branch whose condition holds in
    the world at the start, or else the body of its `Else`. A nest of `If`s, each in the `Else` of the
    one before, chooses alike: until a body is chosen nothing runs, so all conditions of the nest are
    asked in the world at the start too. Taking the `ElseIf`s and `Else`s away and putting the nest in
    as the one `Else`, wherever it stands, leaves the other children as they were. -/

namespace HandlerScript

namespace Node

/-- The body that an `If` has for its own condition. -/
def ownBody (n : Node) : List Node :=
  match n.child? "Then" with
  | some part => part.children
  | none => n.childrenExcept ["Then", "ElseIf", "Else"]

/-- The branches of an `If` in order: the node that has the condition, and the body. -/
def branches (n : Node) : List (Node × List Node) :=
  (n, n.ownBody) :: (n.childrenTagged "ElseIf").map fun part => (part, part.children)

/-- A node that only holds commands. -/
def block (tag : String) (body : List Node) : Node where
  tag := tag
  children := body

/-- An `If` with the condition and the body of an `ElseIf`, and other commands in its `Else`. -/
def ifOf (part : Node) (rest : List Node) : Node where
  tag := "If"
  attributes := part.attributes
  children := [block "Then" part.children, block "Else" rest]

/-- An `If` for each `ElseIf`, in the `Else` of the one before; in the `Else` of the last stand the
    commands `last`. -/
def nest (last : List Node) : List Node → List Node
  | [] => last
  | part :: parts => [part.ifOf (nest last parts)]

/-- The second node is the first with a single `Else` for all its `ElseIf`s and `Else`s, which holds
    the nest of the `ElseIf`s around the body of the first `Else`. -/
structure Nests (n n' : Node) : Prop where
  tag : n'.tag = n.tag
  attributes : n'.attributes = n.attributes
  children : ∃ before after part, before ++ after = n.childrenExcept ["ElseIf", "Else"] ∧
    n'.children = before ++ part :: after ∧ part.hasTag "Else" = true ∧
    part.children = nest (bodyOf n "Else") (n.childrenTagged "ElseIf")

end Node

/-- The body of the first branch whose condition holds, or else the last one. -/
def chosenBody (s : Scope) (branches : List (Node × List Node)) (last : List Node) : List Node :=
  match branches.find? fun branch => conditionHolds s branch.1 with
  | some branch => branch.2
  | none => last

section Choosing

variable {s : Scope} {last : List Node}

theorem chosenBody_cons (branch : Node × List Node) (branches : List (Node × List Node)) :
    chosenBody s (branch :: branches) last =
      if conditionHolds s branch.1 then branch.2 else chosenBody s branches last := by
  unfold chosenBody
  rw [List.find?_cons]
  cases conditionHolds s branch.1 <;> rfl

theorem chosenBody_map (parts : List Node) :
    chosenBody s (parts.map fun part => (part, part.children)) last =
      match parts.find? (conditionHolds s) with
      | some part => part.children
      | none => last := by
  induction parts with
  | nil => rfl
  | cons part parts ih =>
    rw [List.map_cons, chosenBody_cons, ih, List.find?_cons]
    cases conditionHolds s part <;> rfl

theorem branchBody_eq (n : Node) :
    branchBody s n = chosenBody s n.branches (bodyOf n "Else") := by
  rw [Node.branches, chosenBody_cons, chosenBody_map]
  rfl

end Choosing

section Parts

variable {s : Scope} {n n' part : Node} {before after : List Node}

/-- The first of the commands with a tag, where the ones before it have another. -/
theorem bodyOf_of_single {tag : String} (hn : n.children = before ++ part :: after)
    (hpart : part.hasTag tag = true) (hothers : ∀ c ∈ before, c.hasTag tag = false) :
    bodyOf n tag = part.children := by
  have hfind : n.child? tag = some part := by
    have hbefore : before.find? (·.hasTag tag) = none :=
      List.find?_eq_none.2 fun c hc => Bool.eq_false_iff.1 (hothers c hc)
    rw [Node.child?, hn, List.find?_append, hbefore, Option.none_or]
    exact List.find?_cons_of_pos hpart
  rw [bodyOf, hfind]

/-- An `If` with one `Else` and no `ElseIf` has only these two bodies to choose from. -/
theorem branchBody_of_single (hn : n.children = before ++ part :: after)
    (hpart : part.hasTag "Else" = true)
    (hothers : ∀ c ∈ before ++ after, c.hasTag "ElseIf" = false ∧ c.hasTag "Else" = false) :
    branchBody s n = if conditionHolds s n then n.ownBody else part.children := by
  have hnone : n.childrenTagged "ElseIf" = [] := by
    rw [Node.childrenTagged, hn, List.filter_eq_nil_iff]
    intro c hc
    rw [List.mem_append, List.mem_cons, or_left_comm, ← List.mem_append] at hc
    rcases hc with rfl | hc
    · rw [Node.hasTag_of_hasTag hpart]
      decide +kernel
    · exact Bool.eq_false_iff.1 (hothers c hc).1
  have helse : bodyOf n "Else" = part.children :=
    bodyOf_of_single hn hpart fun c hc => (hothers c (List.mem_append_left _ hc)).2
  rw [branchBody_eq, Node.branches, hnone, List.map_nil, chosenBody_cons, helse]
  rfl

theorem branchBody_ifOf (part : Node) (rest : List Node) :
    branchBody s (part.ifOf rest) = if conditionHolds s part then part.children else rest := by
  have hchildren : (part.ifOf rest).children =
      [.block "Then" part.children] ++ .block "Else" rest :: [] := rfl
  have hthen : (part.ifOf rest).child? "Then" = some (.block "Then" part.children) :=
    List.find?_cons_of_pos (Node.hasTag_self _)
  have hown : (part.ifOf rest).ownBody = part.children := by
    rw [Node.ownBody, hthen]
    rfl
  have hothers : ∀ c ∈ [Node.block "Then" part.children] ++ [],
      c.hasTag "ElseIf" = false ∧ c.hasTag "Else" = false := by
    intro c hc
    cases List.mem_singleton.1 hc
    have hthen : (Node.block "Then" part.children).hasTag "Then" = true := Node.hasTag_self _
    rw [Node.hasTag_of_hasTag hthen, Node.hasTag_of_hasTag hthen]
    decide +kernel
  rw [branchBody_of_single hchildren (Node.hasTag_self _) hothers, hown]
  rfl

/-- A `Then` is neither an `ElseIf` nor an `Else`. -/
theorem then_childrenExcept (n : Node) :
    (n.childrenExcept ["ElseIf", "Else"]).find? (·.hasTag "Then") = n.child? "Then" := by
  rw [Node.childrenExcept, List.find?_filter, Node.child?]
  refine congrArg (List.find? · _) (funext fun c => ?_)
  cases hthen : c.hasTag "Then" with
  | false => simp
  | true =>
    have hother : ["ElseIf", "Else"].any c.hasTag = false := by
      rw [List.any_cons, List.any_cons, List.any_nil, Node.hasTag_of_hasTag hthen,
        Node.hasTag_of_hasTag hthen]
      decide +kernel
    simp [hother]

theorem bare_childrenExcept (n : Node) :
    (n.childrenExcept ["ElseIf", "Else"]).filter (!·.hasTag "Then") =
      n.childrenExcept ["Then", "ElseIf", "Else"] := by
  rw [Node.childrenExcept, Node.childrenExcept, List.filter_filter]
  refine congrArg (List.filter · _) (funext fun c => ?_)
  rw [List.any_cons (a := "Then"), Bool.not_or]

/-- The body for the condition of the node itself stands outside the `ElseIf`s and `Else`s. -/
theorem ownBody_congr
    (h : n'.childrenExcept ["ElseIf", "Else"] = n.childrenExcept ["ElseIf", "Else"]) :
    n'.ownBody = n.ownBody := by
  rw [Node.ownBody, Node.ownBody, ← then_childrenExcept, ← then_childrenExcept,
    ← bare_childrenExcept, ← bare_childrenExcept, h]

end Parts

/-! ### The nest -/

section Nests

variable {p : Program} {sender : Option String} {w : World} {r : Run} {n n' : Node}

/-- An `If` comes to what the body that it chooses comes to. -/
theorem comesTo_if (htag : n.hasTag "If" = true) :
    p.ComesTo sender [n] w r ↔ p.ComesTo sender (branchBody (w.scope sender) n) w r :=
  have hif : Command.ofTag n.tag = .branch := Command.ofTag_of_hasTag htag
  comesTo_of_hands_on fun _ => step_branch hif

/-- A nest comes to what the body of the first `ElseIf` with a condition that holds comes to. -/
theorem comesTo_nest (last parts : List Node) :
    p.ComesTo sender (Node.nest last parts) w r ↔
      p.ComesTo sender (chosenBody (w.scope sender)
        (parts.map fun part => (part, part.children)) last) w r := by
  induction parts with
  | nil => rfl
  | cons part parts ih =>
    have htag : (part.ifOf (Node.nest last parts)).hasTag "If" = true := Node.hasTag_self _
    rw [Node.nest, comesTo_if htag, branchBody_ifOf, List.map_cons, chosenBody_cons]
    split
    · rfl
    · exact ih

/-- Around the one `Else` stand the children that are neither `ElseIf` nor `Else`. -/
theorem childrenExcept_nests {before after : List Node} {part : Node}
    (hothers : before ++ after = n.childrenExcept ["ElseIf", "Else"])
    (hchildren : n'.children = before ++ part :: after) (hpart : part.hasTag "Else" = true) :
    n'.childrenExcept ["ElseIf", "Else"] = n.childrenExcept ["ElseIf", "Else"] := by
  have hdropped : (!(["ElseIf", "Else"].any part.hasTag)) = false := by simp [hpart]
  have hkept : ∀ c ∈ before ++ after, (!(["ElseIf", "Else"].any c.hasTag)) = true := by
    intro c hc
    rw [hothers] at hc
    exact (List.mem_filter.1 hc).2
  rw [← hothers, Node.childrenExcept, hchildren, List.filter_append, List.filter_cons,
    if_neg (Bool.eq_false_iff.1 hdropped), ← List.filter_append, List.filter_eq_self]
  exact hkept

theorem branchBody_nests (h : n.Nests n') (s : Scope) : branchBody s n' =
    if conditionHolds s n then n.ownBody
    else Node.nest (bodyOf n "Else") (n.childrenTagged "ElseIf") := by
  obtain ⟨-, hattributes, before, after, part, hothers, hchildren, hpart, hbody⟩ := h
  have hcondition : conditionHolds s n' = conditionHolds s n := by
    rw [conditionHolds, Node.attr?, hattributes]
    rfl
  have hneither : ∀ c ∈ before ++ after, c.hasTag "ElseIf" = false ∧ c.hasTag "Else" = false := by
    intro c hc
    rw [hothers] at hc
    simpa using (List.mem_filter.1 hc).2
  rw [branchBody_of_single hchildren hpart hneither, hcondition, hbody,
    ownBody_congr (childrenExcept_nests hothers hchildren hpart)]

end Nests

/-- An `If` with any number of `ElseIf`s and any other children between them gives the same results as
    the `If` in which they are nested, whatever the commands in it are. What it comes to is what a
    single body comes to: that of the first branch whose condition holds in the world at the start,
    or else that of the first `Else`. -/
theorem elseIf_nests (p : Program) (sender : Option String) (n n' : Node) (w : World)
    (htag : n.hasTag "If" = true) (hnests : n.Nests n') :
    (∀ r, p.ComesTo sender [n] w r ↔ p.ComesTo sender [n'] w r) ∧
    ∀ r, p.ComesTo sender [n] w r ↔
      p.ComesTo sender (chosenBody (w.scope sender) n.branches (bodyOf n "Else")) w r := by
  have hchosen : ∀ r, p.ComesTo sender [n] w r ↔
      p.ComesTo sender (chosenBody (w.scope sender) n.branches (bodyOf n "Else")) w r := by
    intro r
    rw [comesTo_if htag, branchBody_eq]
  refine ⟨fun r => ?_, hchosen⟩
  have htag' : n'.hasTag "If" = true := by rwa [Node.hasTag, hnests.tag]
  rw [hchosen, comesTo_if htag', branchBody_nests hnests, Node.branches, chosenBody_cons]
  split
  · rfl
  · exact (comesTo_nest _ _).symm

/-- Writes a mark behind those that are there. -/
def Node.noting (mark : String) : Node where
  tag := "Append"
  attributes := Table.ofList [("var", "seen"), ("value", mark)]

/-- Two `ElseIf`s and two `Else`s between the commands of an `If`. -/
def Node.chained : Node where
  tag := "IF"
  attributes := Table.ofList [("condition", "{x} == a")]
  children :=
    [.noting "1", { tag := "Else", children := [.noting "2"] },
      { tag := "elseif", attributes := Table.ofList [("condition", "{x} == b")]
        children := [.noting "3"] },
      .noting "4", { tag := "Else", children := [.noting "5"] },
      { tag := "ElseIf", attributes := Table.ofList [("condition", "{x} != c")]
        children := [.noting "6"] }]

/-- The same with one `ElseIf` in the `Else` of the other, between the other commands. -/
def Node.unchained : Node where
  tag := "IF"
  attributes := Table.ofList [("condition", "{x} == a")]
  children :=
    [.noting "1",
      { tag := "else"
        children :=
          [{ tag := "If", attributes := Table.ofList [("condition", "{x} == b")]
             children :=
              [{ tag := "Then", children := [.noting "3"] },
                { tag := "Else"
                  children :=
                    [{ tag := "If", attributes := Table.ofList [("condition", "{x} != c")]
                       children := [{ tag := "Then", children := [.noting "6"] },
                        { tag := "Else", children := [.noting "2"] }] }] }] }] },
      .noting "4"]

theorem elseIf_nests_chained : Node.chained.hasTag "If" = true ∧ Node.chained.Nests .unchained ∧
    ∃ w', Program.ComesTo {} none [.chained] {} (.done w') ∧
      Program.ComesTo {} none [.unchained] {} (.done w') ∧
      w'.store.get? "seen" = some (.str "6") := by
  have htag : Node.chained.hasTag "If" = true := by decide +kernel
  have hnests : Node.chained.Nests .unchained :=
    ⟨rfl, rfl, [_], [_], _, rfl, rfl, by decide +kernel, rfl⟩
  obtain ⟨w', hw', hseen⟩ : ∃ w', runAll (execute {} 2 none) [.chained] {} = .done w' ∧
      w'.store.get? "seen" = some (.str "6") := ⟨_, rfl, rfl⟩
  have hchained : Program.ComesTo {} none [.chained] {} (.done w') := .of_depth 2 Run.noConfusion hw'
  have hnested := ((elseIf_nests {} none .chained .unchained {} htag hnests).1 _).1 hchained
  exact ⟨htag, hnests, w', hchained, hnested, hseen⟩

end HandlerScript
