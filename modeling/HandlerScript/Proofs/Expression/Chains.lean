import HandlerScript.Proofs.Expression.Trees

/-! Literals with operators between them.

    Without parentheses an expression is a chain of literals. Its value is found in two rounds: each plus or
    minus ends a run of factors, the runs are products, and their values are added and subtracted, in both
    rounds from the right. A chain is the text of one tree. A literal in front of it begins a term of its
    own if a plus or minus follows, otherwise it goes in front of the first product, just as it does in
    the runs. -/

namespace HandlerScript.Expression

/-! ### Definitions -/

/-- One item or more, with operators between them. -/
inductive Chain (α : Type) where
  | last (x : α)
  | link (x : α) (op : Operator) (rest : Chain α)

namespace Chain

variable {α β : Type}

def map (f : α → β) : Chain α → Chain β
  | last x => last (f x)
  | link x op rest => link (f x) op (rest.map f)

/-- The items joined by the operators between them, from the right. -/
def grouped (f : Operator → α → α → α) : Chain α → α
  | last x => x
  | link x op rest => f op x (rest.grouped f)

def onFirst (f : α → α) : Chain α → Chain α
  | last x => last (f x)
  | link x op rest => link (f x) op rest

/-- The runs of items between pluses and minuses, each with the operators in it. -/
def runs : Chain α → Chain (Chain α)
  | last x => last (last x)
  | link x op rest => if op.isSum then link (last x) op rest.runs else rest.runs.onFirst (link x op)

/-- The value of a chain of numbers: its runs are products, and their values are added and subtracted. -/
def value (c : Chain Float) : Float :=
  (c.runs.map (grouped Operator.apply)).grouped Operator.apply

/-- The text of a chain of texts. -/
def text (c : Chain (List Char)) : List Char :=
  c.grouped fun op left right => left ++ op.symbol :: right

example (a b c d : α) : (link a .sub (link b .div (link c .mul (last d)))).runs =
    link (last a) .sub (last (link b .div (link c .mul (last d)))) :=
  rfl

/-- Mapping goes past a change of the first item. -/
theorem map_onFirst {f : α → β} {g : α → α} {g' : β → β} (h : ∀ x, f (g x) = g' (f x))
    (c : Chain α) : (c.onFirst g).map f = (c.map f).onFirst g' := by
  cases c with
  | last x => exact congrArg last (h x)
  | link x op rest => exact congrArg (link · op _) (h x)

end Chain

/-! ### Trees of chains -/

namespace Tree

/-- Replaces the first product of a sum. -/
def onFirst (f : Tree .product → Tree .product) : Tree .sum → Tree .sum
  | term p => term (f p)
  | sum op h p rest => sum op h (f p) rest

/-- The tree that a chain is the text of. -/
def ofChain : Chain Literal → Tree .sum
  | .last l => term (factor (literal l))
  | .link l op rest =>
    if h : op.isSum = true then sum op h (factor (literal l)) (ofChain rest)
    else (ofChain rest).onFirst (product op (Bool.eq_false_of_not_eq_true h) (literal l))

/-- The values of the products in a sum. -/
def products : Tree .sum → Chain Float
  | term p => .last p.value
  | sum op _ p rest => .link p.value op rest.products

theorem value_eq_grouped : ∀ t : Tree .sum, t.value = t.products.grouped Operator.apply
  | term p => by rw [products, Chain.grouped, value]
  | sum op _ p rest => by rw [products, Chain.grouped, value, rest.value_eq_grouped]

section First

variable {f : Tree .product → Tree .product}

theorem products_onFirst {g : Float → Float} (h : ∀ p, (f p).value = g p.value) (t : Tree .sum) :
    (t.onFirst f).products = t.products.onFirst g := by
  cases t with
  | term p => rw [onFirst, products, products, h, Chain.onFirst]
  | sum op hop p rest => rw [onFirst, products, products, h, Chain.onFirst]

theorem text_onFirst {front : List Char} (h : ∀ p, (f p).text = front ++ p.text) (t : Tree .sum) :
    (t.onFirst f).text = front ++ t.text := by
  cases t with
  | term p => exact h p
  | sum op hop p rest =>
    rw [onFirst, text, text, h, List.append_assoc]

end First

theorem text_ofChain (c : Chain Literal) : (ofChain c).text = (c.map Literal.text).text := by
  induction c with
  | last l => rfl
  | link l op rest ih =>
    have hlink : ((Chain.link l op rest).map Literal.text).text =
        l.text ++ op.symbol :: (ofChain rest).text := by
      rw [ih]
      rfl
    rw [hlink, ofChain]
    split
    · rfl
    · rw [List.append_cons]
      exact text_onFirst (fun p => List.append_cons _ _ _) _

theorem products_ofChain (c : Chain Literal) : (ofChain c).products =
    (c.map Literal.value).runs.map (Chain.grouped Operator.apply) := by
  induction c with
  | last l => rw [ofChain, products]; rfl
  | link l op rest ih =>
    rw [Chain.map, Chain.runs, ofChain]
    split
    · rw [products, ih]
      rfl
    · have hfirst (run : Chain Float) : (Chain.link l.value op run).grouped Operator.apply =
          op.apply l.value (run.grouped Operator.apply) := rfl
      rw [Chain.map_onFirst hfirst, ← ih]
      exact products_onFirst (fun p => rfl) (ofChain rest)

end Tree

/-! ### Evaluation -/

/-- Evaluating literals with operators between them gives the sum of the products of their values, both
    grouped to the right. -/
theorem value_eq_value_chain (c : Chain Literal) {text : String}
    (h : Spells text (c.map Literal.text).text) : value text = (c.map Literal.value).value := by
  have htree : (Tree.ofChain c).value = (c.map Literal.value).value := by
    rw [Tree.value_eq_grouped, Tree.products_ofChain, Chain.value]
  rw [← Tree.text_ofChain] at h
  rw [← htree, value_of_collapses h (Tree.ofChain c).collapses, Tree.flat_spliced]

/-- All four operators, runs of either kind, a sign behind an operator, and blanks. -/
theorem value_eq_value_chain_mixed : ∃ c : Chain Literal,
    Spells "8/4/ 2 + 3*-2 -\t.5" (c.map Literal.text).text ∧
      value "8/4/ 2 + 3*-2 -\t.5" = (c.map Literal.value).value ∧ (c.map Literal.value).value = -2.5 := by
  refine ⟨.link ⟨.absent, .ofParts ['8'] none rfl⟩ .div (.link ⟨.absent, .ofParts ['4'] none rfl⟩ .div
    (.link ⟨.absent, .ofParts ['2'] none rfl⟩ .add (.link ⟨.absent, .ofParts ['3'] none rfl⟩ .mul
      (.link ⟨.minus, .ofParts ['2'] none rfl⟩ .sub
        (.last ⟨.absent, .ofParts [] (some ['5']) rfl⟩))))), ?_⟩
  exact ⟨rfl, value_eq_value_chain _ rfl, by decide +kernel⟩

end HandlerScript.Expression
