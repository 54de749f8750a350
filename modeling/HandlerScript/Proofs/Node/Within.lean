import HandlerScript.Execution
import Mathlib.Logic.Relation

/-! Nodes inside a command tree.

    `n.Within t` says that the node `n` occurs in the tree `t`, as its root or at any depth below it;
    `n.Below t` leaves the root out. Trees are finite, so a property that passes from the children of
    a node to the node holds of every tree, and the nodes of a tree can be listed. Whatever a branch, a
    switch or a guarded block chooses to run stands below its own node, which is all that a statement
    about runs has to know of them. -/

namespace HandlerScript

namespace Node

def IsChild (c n : Node) : Prop := c ∈ n.children

/-- The node occurs in a tree. -/
def Within : Node → Node → Prop := Relation.ReflTransGen IsChild

/-- The node occurs in a tree and is not its root. -/
def Below : Node → Node → Prop := Relation.TransGen IsChild

theorem within_self (n : Node) : n.Within n := Relation.ReflTransGen.refl

theorem Below.within {c n : Node} (h : c.Below n) : c.Within n := h.to_reflTransGen

theorem Within.trans {a b c : Node} (h : a.Within b) (h' : b.Within c) : a.Within c :=
  Relation.ReflTransGen.trans h h'

theorem below_of_mem {c n : Node} (h : c ∈ n.children) : c.Below n := Relation.TransGen.single h

/-- What stands among the children of a child stands below the node. -/
theorem below_of_mem_mem {c m n : Node} (h : c ∈ m.children) (h' : m ∈ n.children) : c.Below n :=
  (below_of_mem h).tail h'

theorem below_iff {c n : Node} : c.Below n ↔ ∃ m ∈ n.children, c.Within m := by
  constructor
  · intro h
    obtain ⟨m, hcm, hmn⟩ := Relation.TransGen.tail'_iff.1 h
    exact ⟨m, hmn, hcm⟩
  · rintro ⟨m, hmn, hcm⟩
    exact Relation.TransGen.tail' hcm hmn

theorem within_iff {c n : Node} : c.Within n ↔ c = n ∨ c.Below n := by
  rw [Within, Relation.reflTransGen_iff_eq_or_transGen, eq_comm]
  rfl

/-- A node without children is all of its tree. -/
theorem within_leaf {n m : Node} (hm : m.children = []) (h : n.Within m) : n = m := by
  rcases within_iff.1 h with rfl | h
  · rfl
  · obtain ⟨c, hc, -⟩ := below_iff.1 h
    simp [hm] at hc

/-- A property that passes from the children of a node to the node holds of every tree. -/
theorem induction_children {P : Node → Prop} (step : ∀ n, (∀ c ∈ n.children, P c) → P n) :
    ∀ n, P n
  | ⟨tag, attributes, text, children⟩ => step _ fun c hc => by
    have : sizeOf c < sizeOf children := List.sizeOf_lt_of_mem hc
    exact induction_children step c

/-! ### All nodes of a tree -/

mutual

/-- The nodes of a tree in the order of its text, the root first. -/
def preorder : Node → List Node
  | ⟨tag, attributes, text, children⟩ => ⟨tag, attributes, text, children⟩ :: preorderAll children

def preorderAll : List Node → List Node
  | [] => []
  | n :: ns => n.preorder ++ preorderAll ns

end

theorem preorder_eq (n : Node) : n.preorder = n :: preorderAll n.children := by
  cases n
  rw [preorder]

theorem preorderAll_eq (ns : List Node) : preorderAll ns = ns.flatMap preorder := by
  induction ns with
  | nil => rfl
  | cons n ns ih => rw [preorderAll, ih, List.flatMap_cons]

theorem mem_preorder {n : Node} : ∀ {t : Node}, n ∈ t.preorder ↔ n.Within t := by
  intro t
  induction t using induction_children with
  | step t ih =>
    rw [preorder_eq, preorderAll_eq, List.mem_cons, List.mem_flatMap, within_iff, below_iff]
    refine or_congr_right (exists_congr fun c => and_congr_right fun hc => ?_)
    exact ih c hc

/-! ### The bodies that commands choose -/

theorem child?_mem {n c : Node} {tag : String} (h : n.child? tag = some c) : c ∈ n.children :=
  List.mem_of_find?_eq_some h

theorem below_of_mem_childrenExcept {n c : Node} {tags : List String}
    (h : c ∈ n.childrenExcept tags) : c.Below n :=
  below_of_mem (List.mem_filter.1 h).1

/-- A node found among the children with a tag is a child. -/
theorem mem_of_find?_childrenTagged {n c : Node} {tag : String} {q : Node → Bool}
    (h : (n.childrenTagged tag).find? q = some c) : c ∈ n.children :=
  (List.mem_filter.1 (List.mem_of_find?_eq_some h)).1

end Node

theorem below_of_mem_bodyOf {node c : Node} {tag : String} (h : c ∈ bodyOf node tag) :
    c.Below node := by
  unfold bodyOf at h
  split at h
  · rename_i m hm
    exact Node.below_of_mem_mem h (Node.child?_mem hm)
  · simp at h

theorem below_of_mem_branchBody {s : Scope} {node c : Node} (h : c ∈ branchBody s node) :
    c.Below node := by
  unfold branchBody at h
  split at h
  · split at h
    · rename_i m hm
      exact Node.below_of_mem_mem h (Node.child?_mem hm)
    · exact Node.below_of_mem_childrenExcept h
  · split at h
    · rename_i m hm
      exact Node.below_of_mem_mem h (Node.mem_of_find?_childrenTagged hm)
    · exact below_of_mem_bodyOf h

theorem below_of_mem_switchBody {s : Scope} {node c : Node} (h : c ∈ switchBody s node) :
    c.Below node := by
  unfold switchBody at h
  simp only at h
  split at h
  · rename_i m hm
    exact Node.below_of_mem_mem h (Node.mem_of_find?_childrenTagged hm)
  · exact below_of_mem_bodyOf h

theorem below_of_mem_tryBody {node c : Node} (h : c ∈ tryBody node) : c.Below node := by
  unfold tryBody at h
  split at h
  · rename_i m hm
    exact Node.below_of_mem_mem h (Node.child?_mem hm)
  · exact Node.below_of_mem_childrenExcept h

end HandlerScript
