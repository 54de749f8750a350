import HandlerScript.Execution
import Mathlib.Data.List.Forall2

/-! Command trees that correspond node by node.

    Two nodes are paired if their attributes are the same and their children correspond one by one.
    Commands look for parts of their own among their children: branches, cases and guarded blocks. If
    corresponding children are the same parts, and corresponding parts are paired, then a command finds
    the same parts in paired nodes, and hands on bodies that correspond. The two may even be read in
    different scopes, as long as texts resolve to the same in both. -/

namespace HandlerScript

/-- The first members of corresponding lists that pass a test correspond, more closely if passing it
    says more about them. -/
theorem find?_rel {α : Type} {R Q : α → α → Prop} {q q' : α → Bool} {l l' : List α}
    (h : List.Forall₂ R l l') (hq : ∀ a b, R a b → q' b = q a)
    (hQ : ∀ a b, R a b → q a = true → Q a b) : Option.Rel Q (l.find? q) (l'.find? q') := by
  induction h with
  | nil => exact .none
  | @cons a b _ _ hab _ ih =>
    rw [List.find?_cons, List.find?_cons, hq a b hab]
    cases ha : q a with
    | true => exact .some (hQ a b hab ha)
    | false => exact ih

namespace Node

/-- The tags of the parts that commands look for among their children. -/
def partTags : List String :=
  ["Then", "ElseIf", "Else", "Case", "Default", "Try", "Catch", "Finally"]

theorem hasTag_self (n : Node) : n.hasTag n.tag = true := Text.sameLetters_iff.2 rfl

/-- A node that has one tag has just those others that are spelled alike. -/
theorem hasTag_of_hasTag {n : Node} {tag : String} (h : n.hasTag tag = true) (other : String) :
    n.hasTag other = Text.sameLetters tag other := by
  rw [hasTag, Text.sameLetters, Text.sameLetters_iff.1 h, Text.sameLetters]

/-- Two nodes with the same attributes and with children that correspond. -/
structure Paired (R : Node → Node → Prop) (n n' : Node) : Prop where
  attr : ∀ name, n'.attr? name = n.attr? name
  children : List.Forall₂ R n.children n'.children

/-- Corresponding nodes are the same parts of the nodes above them, and corresponding parts are
    paired. -/
structure KeepsParts (R : Node → Node → Prop) : Prop where
  hasTag : ∀ {c c' : Node}, R c c' → ∀ tag ∈ partTags, c'.hasTag tag = c.hasTag tag
  paired : ∀ {c c' : Node}, R c c' → ∀ tag ∈ partTags, c.hasTag tag = true → c.Paired R c'

theorem paired_eq (n : Node) : n.Paired Eq n :=
  ⟨fun _ => rfl, List.forall₂_refl n.children⟩

theorem keepsParts_eq : KeepsParts Eq where
  hasTag := by
    rintro c _ rfl _ _
    rfl
  paired := by
    rintro c _ rfl _ _ _
    exact paired_eq c

end Node

section Bodies

variable {R : Node → Node → Prop} {n n' : Node} {s s' : Scope}

/-! ### Attributes of paired nodes -/

theorem Node.Paired.attrOf? (h : n.Paired R n') (names : List String) :
    n'.attrOf? names = n.attrOf? names := by
  rw [Node.attrOf?, Node.attrOf?, funext h.attr]

variable (hs : ∀ text, s'.resolve text = s.resolve text)

include hs

theorem attr?_paired (h : n.Paired R n') (name : String) : s'.attr? n' name = s.attr? n name := by
  rw [Scope.attr?, Scope.attr?, h.attr, funext hs]

theorem attrOf?_paired (h : n.Paired R n') (names : List String) :
    s'.attrOf? n' names = s.attrOf? n names := by
  rw [Scope.attrOf?, Scope.attrOf?, h.attrOf?, funext hs]

theorem attrText_paired (h : n.Paired R n') (name : String) :
    s'.attrText n' name = s.attrText n name := by
  rw [Scope.attrText, Scope.attrText, attr?_paired hs h]

theorem conditionHolds_paired (h : n.Paired R n') : conditionHolds s' n' = conditionHolds s n := by
  rw [conditionHolds, conditionHolds, Condition.holds, Condition.holds, h.attr, hs]

omit hs

/-! ### Bodies of paired nodes -/

variable (hR : Node.KeepsParts R)

include hR

theorem child?_rel (tag : String) (htag : tag ∈ Node.partTags) (h : n.Paired R n') :
    Option.Rel (Node.Paired R) (n.child? tag) (n'.child? tag) :=
  find?_rel h.children (fun _ _ hc => hR.hasTag hc tag htag) fun _ _ hc => hR.paired hc tag htag

/-- The first parts of a kind that pass a test which paired nodes pass alike are paired. -/
theorem find?_childrenTagged_rel (tag : String) {q q' : Node → Bool} (htag : tag ∈ Node.partTags)
    (h : n.Paired R n') (hq : ∀ c c', c.Paired R c' → q' c' = q c) :
    Option.Rel (Node.Paired R) ((n.childrenTagged tag).find? q)
      ((n'.childrenTagged tag).find? q') := by
  rw [Node.childrenTagged, Node.childrenTagged, List.find?_filter, List.find?_filter]
  refine find?_rel h.children (fun c c' hc => ?_) fun c c' hc hpass => ?_
  · rw [hR.hasTag hc tag htag]
    cases hpart : c.hasTag tag with
    | false => rfl
    | true => rw [hq c c' (hR.paired hc tag htag hpart)]
  · simp only [decide_eq_true_eq] at hpass
    exact hR.paired hc tag htag hpass.1

theorem childrenExcept_forall₂ {tags : List String} (htags : ∀ tag ∈ tags, tag ∈ Node.partTags)
    (h : n.Paired R n') : List.Forall₂ R (n.childrenExcept tags) (n'.childrenExcept tags) := by
  refine List.rel_filter (fun {c c'} hc => ?_) h.children
  have hany : tags.any c'.hasTag = tags.any c.hasTag := by
    rw [Bool.eq_iff_iff, List.any_eq_true, List.any_eq_true]
    refine exists_congr fun tag => and_congr_right fun htag => ?_
    rw [hR.hasTag hc tag (htags tag htag)]
  show (!tags.any c.hasTag) = true ↔ (!tags.any c'.hasTag) = true
  rw [hany]

theorem bodyOf_forall₂ {tag : String} (htag : tag ∈ Node.partTags) (h : n.Paired R n') :
    List.Forall₂ R (bodyOf n tag) (bodyOf n' tag) := by
  have hchild := child?_rel hR tag htag h
  unfold bodyOf
  generalize n.child? tag = c at hchild
  generalize n'.child? tag = c' at hchild
  cases hchild with
  | none => exact .nil
  | some hc => exact hc.children

theorem tryBody_forall₂ (h : n.Paired R n') : List.Forall₂ R (tryBody n) (tryBody n') := by
  have hchild := child?_rel hR "Try" (by decide) h
  unfold tryBody
  generalize n.child? "Try" = c at hchild
  generalize n'.child? "Try" = c' at hchild
  cases hchild with
  | none => exact childrenExcept_forall₂ hR (by decide) h
  | some hc => exact hc.children

include hs

theorem branchBody_forall₂ (h : n.Paired R n') :
    List.Forall₂ R (branchBody s n) (branchBody s' n') := by
  have hthen := child?_rel hR "Then" (by decide) h
  have helse := find?_childrenTagged_rel hR "ElseIf" (by decide) h
    fun c c' hc => conditionHolds_paired hs hc
  unfold branchBody
  rw [conditionHolds_paired hs h]
  split
  · generalize n.child? "Then" = c at hthen
    generalize n'.child? "Then" = c' at hthen
    cases hthen with
    | none => exact childrenExcept_forall₂ hR (by decide) h
    | some hc => exact hc.children
  · generalize (n.childrenTagged "ElseIf").find? (conditionHolds s) = c at helse
    generalize (n'.childrenTagged "ElseIf").find? (conditionHolds s') = c' at helse
    cases helse with
    | none => exact bodyOf_forall₂ hR (by decide) h
    | some hc => exact hc.children

theorem switchBody_forall₂ (h : n.Paired R n') :
    List.Forall₂ R (switchBody s n) (switchBody s' n') := by
  have htest : ∀ c c', c.Paired R c' →
      (Text.trim (s'.attrText c' "value") == Text.trim (s'.attrText n' "value")) =
        (Text.trim (s.attrText c "value") == Text.trim (s.attrText n "value")) := by
    intro c c' hc
    rw [attrText_paired hs hc, attrText_paired hs h]
  have hcase := find?_childrenTagged_rel hR "Case" (by decide) h htest
  unfold switchBody
  dsimp only
  generalize (n.childrenTagged "Case").find? _ = c at hcase ⊢
  generalize (n'.childrenTagged "Case").find? _ = c' at hcase ⊢
  cases hcase with
  | none => exact bodyOf_forall₂ hR (by decide) h
  | some hc => exact hc.children

end Bodies

end HandlerScript
