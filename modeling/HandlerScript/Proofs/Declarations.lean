import HandlerScript.Proofs.Document
import HandlerScript.Proofs.Node.Paired

/-! Where declarations stand.

    A node of a tree has a position: the indices of the children to go down by. Positions in increasing
    order, the longer of two behind its beginning, are the order of the text, a node before what is in
    it. A walk down the tree that stops at declarations comes by those that are in no other declaration,
    in this order and once each. So the variables and handlers of a document are those of such
    declarations that have a name, and a declaration without a name hides what is in it all the same. -/

namespace HandlerScript

namespace Node

/-- The node at a position. -/
def at? (t : Node) : List Nat → Option Node
  | [] => some t
  | i :: p => t.children[i]?.bind (·.at? p)

theorem at?_cons_eq_some_iff {t n : Node} {i : Nat} {p : List Nat} :
    t.at? (i :: p) = some n ↔ ∃ c, t.children[i]? = some c ∧ c.at? p = some n :=
  Option.bind_eq_some_iff

/-- Whether a node has one of several tags. -/
def Tagged (n : Node) (tags : List String) : Prop := ∃ tag ∈ tags, n.hasTag tag = true

instance (n : Node) (tags : List String) : Decidable (n.Tagged tags) :=
  inferInstanceAs (Decidable (∃ tag ∈ tags, n.hasTag tag = true))

/-- The node at a position, if no other node that it is in has one of the tags. -/
structure ExposedAt (t : Node) (tags : List String) (p : List Nat) (n : Node) : Prop where
  here : t.at? p = some n
  outside : ∀ q a, q <+: p → q ≠ p → t.at? q = some a → ¬ a.Tagged tags

section Positions

variable {t n : Node} {tags : List String} {i : Nat} {p : List Nat}

theorem exposedAt_nil : t.ExposedAt tags [] n ↔ n = t := by
  constructor
  · intro h
    exact (Option.some.inj h.here).symm
  · rintro rfl
    exact ⟨rfl, fun q a hq hne => absurd (List.prefix_nil.1 hq) hne⟩

theorem exposedAt_cons : t.ExposedAt tags (i :: p) n ↔
    ¬ t.Tagged tags ∧ ∃ c, t.children[i]? = some c ∧ c.ExposedAt tags p n := by
  constructor
  · rintro ⟨hhere, houtside⟩
    obtain ⟨c, hc, hn⟩ := at?_cons_eq_some_iff.1 hhere
    refine ⟨houtside [] t (List.nil_prefix) (List.cons_ne_nil i p).symm rfl, c, hc, hn, ?_⟩
    intro q a hq hne ha
    exact houtside (i :: q) a (List.cons_prefix_cons.2 ⟨rfl, hq⟩) (by simpa using hne)
      (at?_cons_eq_some_iff.2 ⟨c, hc, ha⟩)
  · rintro ⟨hroot, c, hc, hhere, houtside⟩
    refine ⟨at?_cons_eq_some_iff.2 ⟨c, hc, hhere⟩, ?_⟩
    intro q a hq hne ha
    cases q with
    | nil => exact Option.some.inj ha ▸ hroot
    | cons j q =>
      obtain ⟨rfl, hq'⟩ := List.cons_prefix_cons.1 hq
      obtain ⟨d, hd, ha'⟩ := at?_cons_eq_some_iff.1 ha
      cases hc.symm.trans hd
      exact houtside q a hq' (by simpa using hne) ha'

end Positions

/-! ### The walk -/

mutual

/-- The outermost nodes with one of the tags, and their positions. -/
def outermost (tags : List String) : Node → List (List Nat × Node)
  | ⟨tag, attributes, text, children⟩ =>
    let node : Node := ⟨tag, attributes, text, children⟩
    if node.Tagged tags then [([], node)] else outermostFrom tags 0 children

/-- The same in nodes that are children from some index on. -/
def outermostFrom (tags : List String) (i : Nat) : List Node → List (List Nat × Node)
  | [] => []
  | n :: ns => (outermost tags n).map (fun e => (i :: e.1, e.2)) ++ outermostFrom tags (i + 1) ns

end

section Walk

variable {tags : List String}

theorem outermost_eq (t : Node) : outermost tags t =
    if t.Tagged tags then [([], t)] else outermostFrom tags 0 t.children := by
  cases t
  rw [outermost]

/-- What is found in children is found in one of them. -/
theorem mem_outermostFrom {p : List Nat} {n : Node} {ns : List Node} {i : Nat} :
    (p, n) ∈ outermostFrom tags i ns ↔
      ∃ j c q, ns[j]? = some c ∧ (q, n) ∈ outermost tags c ∧ p = (i + j) :: q := by
  induction ns generalizing i with
  | nil => simp [outermostFrom]
  | cons m ns ih =>
    rw [outermostFrom, List.mem_append, List.mem_map, ih]
    constructor
    · rintro (⟨d, hd, heq⟩ | ⟨j, c, q, hc, hq, rfl⟩)
      · cases heq
        exact ⟨0, m, d.1, rfl, hd, rfl⟩
      · exact ⟨j + 1, c, q, hc, hq, by rw [Nat.add_right_comm, Nat.add_assoc]⟩
    · rintro ⟨j, c, q, hc, hq, rfl⟩
      cases j with
      | zero =>
        cases hc
        exact .inl ⟨_, hq, rfl⟩
      | succ j => exact .inr ⟨j, c, q, hc, hq, by rw [Nat.add_right_comm, Nat.add_assoc]⟩

/-- The walk comes by the nodes with the tags that are in no other such node. -/
theorem mem_outermost {t n : Node} {p : List Nat} :
    (p, n) ∈ outermost tags t ↔ t.ExposedAt tags p n ∧ n.Tagged tags := by
  induction t using induction_children generalizing p with
  | step t ih =>
    rw [outermost_eq]
    by_cases ht : t.Tagged tags
    · rw [if_pos ht, List.mem_singleton, Prod.mk.injEq]
      cases p with
      | nil =>
        rw [exposedAt_nil]
        exact ⟨fun h => ⟨h.2, h.2 ▸ ht⟩, fun h => ⟨rfl, h.1⟩⟩
      | cons i p => exact ⟨fun h => (nomatch h.1), fun h => absurd ht (exposedAt_cons.1 h.1).1⟩
    · rw [if_neg ht, mem_outermostFrom]
      cases p with
      | nil =>
        rw [exposedAt_nil]
        constructor
        · rintro ⟨_, _, _, _, _, ⟨⟩⟩
        · rintro ⟨rfl, hn⟩
          exact absurd hn ht
      | cons i p =>
        rw [exposedAt_cons]
        constructor
        · rintro ⟨j, c, q, hc, hq, heq⟩
          rw [Nat.zero_add] at heq
          cases heq
          obtain ⟨hn, hn'⟩ := (ih c (List.mem_of_getElem? hc)).1 hq
          exact ⟨⟨ht, c, hc, hn⟩, hn'⟩
        · rintro ⟨⟨-, c, hc, hn⟩, hn'⟩
          exact ⟨i, c, p, hc, (ih c (List.mem_of_getElem? hc)).2 ⟨hn, hn'⟩, by rw [Nat.zero_add]⟩

theorem pairwise_outermostFrom {ns : List Node}
    (h : ∀ n ∈ ns, (outermost tags n).Pairwise (·.1 < ·.1)) (i : Nat) :
    (outermostFrom tags i ns).Pairwise (·.1 < ·.1) := by
  induction ns generalizing i with
  | nil => exact List.Pairwise.nil
  | cons m ns ih =>
    rw [outermostFrom, List.pairwise_append, List.pairwise_map]
    refine ⟨?_, ih (fun n hn => h n (List.mem_cons_of_mem m hn)) (i + 1), ?_⟩
    · exact (h m List.mem_cons_self).imp fun hlt => List.cons_lt_cons_iff.2 (.inr ⟨rfl, hlt⟩)
    · intro a ha b hb
      obtain ⟨d, -, rfl⟩ := List.mem_map.1 ha
      obtain ⟨j, c, q, -, -, hb⟩ := mem_outermostFrom.1 hb
      rw [hb]
      exact List.cons_lt_cons_iff.2 (.inl (by omega))

/-- The walk follows the order of the text. -/
theorem pairwise_outermost (t : Node) : (outermost tags t).Pairwise (·.1 < ·.1) := by
  induction t using induction_children with
  | step t ih =>
    rw [outermost_eq]
    split
    · exact List.pairwise_singleton _ _
    · exact pairwise_outermostFrom ih 0

/-- What is gathered from the children of a node unless the node has one of the tags is gathered from
    the outermost nodes with the tags. -/
theorem eq_flatMap_outermost {α : Type} {f g : Node → List α}
    (hf : ∀ t, f t = if t.Tagged tags then g t else t.children.flatMap f) (t : Node) :
    f t = (outermost tags t).flatMap fun e => g e.2 := by
  induction t using induction_children with
  | step t ih =>
    rw [hf, outermost_eq]
    split
    · rw [List.flatMap_singleton]
    · suffices h : ∀ i, t.children.flatMap f = (outermostFrom tags i t.children).flatMap fun e => g e.2 from
        h 0
      generalize t.children = ns at ih
      induction ns with
      | nil => exact fun _ => rfl
      | cons m ns ihs =>
        intro i
        rw [List.flatMap_cons, outermostFrom, List.flatMap_append, List.flatMap_map,
          ih m List.mem_cons_self, ihs (fun c hc => ih c (List.mem_cons_of_mem m hc)) (i + 1)]

end Walk

end Node

/-- Whether a node has a name that is not blank. -/
def Node.Named (n : Node) : Prop := ∃ name, n.attr? "name" = some name ∧ Text.trim name ≠ ""

namespace Document

/-- The tags of declarations. -/
def declarationTags : List String := ["Variable", "Var", "Handler"]

/-- A list of what the declarations with some tags in a tree come to: one entry for each that has a
    name and is in no other declaration, in the order of the text. -/
def Lists {α : Type} (root : Node) (tags : List String) (Declares : Node → α → Prop)
    (entries : List α) : Prop :=
  ∃ ps : List (List Nat), ps.Pairwise (· < ·) ∧
    (∀ p, p ∈ ps ↔ ∃ n, root.ExposedAt declarationTags p n ∧ n.Tagged tags ∧ n.Named) ∧
    List.Forall₂ (fun p entry => ∃ n, root.at? p = some n ∧ Declares n entry) ps entries

section Lists

variable {n : Node}

theorem isSome_name_iff {α : Type} {f : String → α} :
    (((n.attr? "name").bind Text.nonBlank?).map f).isSome = true ↔ n.Named := by
  rw [Option.isSome_map]
  cases hname : n.attr? "name" with
  | none => simp [Node.Named, hname]
  | some name =>
    have hblank : (Text.nonBlank? name).isSome = true ↔ Text.trim name ≠ "" := by
      unfold Text.nonBlank?
      dsimp only
      split <;> simp_all
    simpa [Node.Named, hname] using hblank

/-- Of things in a row those that are chosen and have an entry go with the entries one by one. -/
theorem forall₂_filter_flatMap {α β : Type} (chosen : β → Prop) [DecidablePred chosen]
    (found? : β → Option α) (es : List β) :
    List.Forall₂ (fun e entry => found? e = some entry)
      (es.filter fun e => decide (chosen e) && (found? e).isSome)
      (es.flatMap fun e => if chosen e then (found? e).toList else []) := by
  induction es with
  | nil => exact .nil
  | cons e es ih =>
    rw [List.flatMap_cons]
    by_cases hchosen : chosen e
    · cases hentry : found? e with
      | none => simpa [hchosen, hentry] using ih
      | some entry => simpa [hchosen, hentry] using ih
    · simpa [hchosen] using ih

/-- The entries of the nodes that a walk down to declarations comes by. -/
theorem lists_outermost {α : Type} (tags : List String) (found? : Node → Option α)
    {Declares : Node → α → Prop} (htags : tags ⊆ declarationTags)
    (hnamed : ∀ n, (found? n).isSome = true ↔ n.Named)
    (hdeclares : ∀ n entry, found? n = some entry → Declares n entry) (root : Node) :
    Lists root tags Declares ((Node.outermost declarationTags root).flatMap fun e =>
      if e.2.Tagged tags then (found? e.2).toList else []) := by
  have hentries := forall₂_filter_flatMap (fun e : List Nat × Node => e.2.Tagged tags)
    (fun e => found? e.2) (Node.outermost declarationTags root)
  have hplaced := (List.forall₂_and_left (p := fun e : List Nat × Node => root.at? e.1 = some e.2) _ _).2
    ⟨fun e he => (Node.mem_outermost.1 (List.mem_of_mem_filter he)).1.here, hentries⟩
  refine ⟨List.map Prod.fst _, ?_, fun p => ?_, List.forall₂_map_left_iff.2 (hplaced.imp fun e entry h => ?_)⟩
  · exact List.pairwise_map.2 ((Node.pairwise_outermost root).sublist List.filter_sublist)
  · rw [List.mem_map]
    constructor
    · rintro ⟨⟨p, n⟩, he, rfl⟩
      obtain ⟨he, hchosen⟩ := List.mem_filter.1 he
      rw [Bool.and_eq_true, decide_eq_true_eq, hnamed] at hchosen
      exact ⟨n, (Node.mem_outermost.1 he).1, hchosen⟩
    · rintro ⟨n, hexposed, htagged, hname⟩
      obtain ⟨tag, htag, hn⟩ := id htagged
      refine ⟨(p, n), List.mem_filter.2 ⟨Node.mem_outermost.2 ⟨hexposed, tag, htags htag, hn⟩, ?_⟩, rfl⟩
      rw [Bool.and_eq_true, decide_eq_true_eq, hnamed]
      exact ⟨htagged, hname⟩
  · exact ⟨e.2, h.1, hdeclares _ _ h.2⟩

theorem tagged_declarationTags :
    n.Tagged declarationTags ↔ (declaresVariable n || declaresHandler n) = true := by
  simp [Node.Tagged, declarationTags, declaresVariable, declaresHandler, or_assoc]

/-- No node declares both a variable and a handler. -/
theorem not_declaresVariable (h : declaresHandler n = true) : declaresVariable n = false := by
  rw [declaresVariable, Node.hasTag_of_hasTag h, Node.hasTag_of_hasTag h]
  decide

theorem variablesIn_eq_flatMap (root : Node) : variablesIn root =
    (Node.outermost declarationTags root).flatMap fun e =>
      if e.2.Tagged ["Variable", "Var"] then (Variable.ofNode? e.2).toList else [] := by
  refine Node.eq_flatMap_outermost (g := fun n =>
    if n.Tagged ["Variable", "Var"] then (Variable.ofNode? n).toList else []) (fun t => ?_) root
  have hvariable : t.Tagged ["Variable", "Var"] ↔ declaresVariable t = true := by
    simp [Node.Tagged, declaresVariable]
  rw [variablesIn_eq]
  simp only [tagged_declarationTags, hvariable]
  cases declaresVariable t <;> cases declaresHandler t <;> rfl

theorem handlersIn_eq_flatMap (root : Node) : handlersIn root =
    (Node.outermost declarationTags root).flatMap fun e =>
      if e.2.Tagged ["Handler"] then (Handler.ofNode? e.2).toList else [] := by
  refine Node.eq_flatMap_outermost (g := fun n =>
    if n.Tagged ["Handler"] then (Handler.ofNode? n).toList else []) (fun t => ?_) root
  have hhandler : t.Tagged ["Handler"] ↔ declaresHandler t = true := by
    simp [Node.Tagged, declaresHandler]
  rw [handlersIn_eq]
  simp only [tagged_declarationTags, hhandler]
  cases hboth : declaresHandler t with
  | true =>
    rw [not_declaresVariable hboth]
    rfl
  | false => cases declaresVariable t <;> rfl

end Lists

/-- A document lists the variables and the handlers of the declarations in a tree that have a name and
    are in no other declaration, each once and in the order of the text. Names are trimmed and not empty,
    and the body of a handler is what its node holds. -/
theorem ofTree_lists (root : Node) :
    Lists root ["Variable", "Var"]
      (fun n v => Variable.ofNode? n = some v ∧ Text.Tidy v.name) (ofTree root).vars ∧
    Lists root ["Handler"]
      (fun n h => Handler.ofNode? n = some h ∧ Text.Tidy h.name ∧ h.body = n.children)
      (ofTree root).handlers := by
  have hvariables := lists_outermost ["Variable", "Var"] Variable.ofNode? (by decide)
    (fun _ => isSome_name_iff)
    (fun n v (hv : Variable.ofNode? n = some v) => And.intro hv (Variable.tidy_of_ofNode? hv)) root
  have hhandlers := lists_outermost ["Handler"] Handler.ofNode? (by decide)
    (fun _ => isSome_name_iff)
    (fun n h (hh : Handler.ofNode? n = some h) => And.intro hh
      (And.intro (Handler.tidy_of_ofNode? hh) (Handler.body_of_ofNode? hh))) root
  rw [← variablesIn_eq_flatMap] at hvariables
  rw [← handlersIn_eq_flatMap] at hhandlers
  exact ⟨hvariables, hhandlers⟩

end Document

end HandlerScript
