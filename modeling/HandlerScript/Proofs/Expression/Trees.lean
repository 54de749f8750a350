import HandlerScript.Proofs.Expression.Groups

/-! Expression trees.

    An expression is a sum of products of operands, and an operand is a literal or an expression in
    parentheses. Each level is a type of its own, so a tree has the precedence of its text, and operators
    of one level group to the right. The text of a tree collapses to its text with the value of each group
    in place of it; that one splits where the tree branches. So evaluating the text gives the value of the
    tree. -/

namespace HandlerScript.Expression

open Decimal (Sign Numeral plain)

/-! ### Definitions -/

/-- A number as it is written in an expression: digits with at most one point, and a sign in front. -/
structure Literal where
  sign : Sign
  numeral : Numeral

namespace Literal

def text (l : Literal) : List Char := l.sign.text ++ l.numeral.text

/-- The number that is nearest to it. -/
def value (l : Literal) : Float := l.numeral.value l.sign.negative 0

end Literal

/-- What can stand on one side of an operator: all behind a plus or minus, a product in front of it, an
    operand in front of any other operator. -/
inductive Level where
  | operand
  | product
  | sum

/-- Expressions by their level. -/
inductive Tree : Level → Type where
  | literal (l : Literal) : Tree .operand
  | group (inside : Tree .sum) : Tree .operand
  /-- A product of one factor. -/
  | factor (operand : Tree .operand) : Tree .product
  | product (op : Operator) (h : op.isSum = false) (left : Tree .operand) (right : Tree .product) :
      Tree .product
  /-- A sum of one term. -/
  | term (product : Tree .product) : Tree .sum
  | sum (op : Operator) (h : op.isSum = true) (left : Tree .product) (right : Tree .sum) : Tree .sum

namespace Tree

def text {k : Level} : Tree k → List Char
  | literal l => l.text
  | group inside => '(' :: inside.text ++ [')']
  | factor t | term t => t.text
  | product op _ left right | sum op _ left right => left.text ++ op.symbol :: right.text

def value {k : Level} : Tree k → Float
  | literal l => l.value
  | group inside => inside.value
  | factor t | term t => t.value
  | product op _ left right | sum op _ left right => op.apply left.value right.value

/-- The text with the value of each group spliced in for it. -/
def spliced {k : Level} : Tree k → List Char
  | literal l => l.text
  | group inside => plain inside.value
  | factor t | term t => t.spliced
  | product op _ left right | sum op _ left right => left.spliced ++ op.symbol :: right.spliced

end Tree

/-! ### Splitting -/

section Literals

variable (l : Literal)

theorem Literal.isBody : ∀ c ∈ l.numeral.text, IsBody c := fun c hc =>
  .pointed (l.numeral.isPointed_of_mem_text c hc)

theorem Literal.isNumeric : ∀ c ∈ l.text, IsNumeric c :=
  isNumeric_sign_append fun c hc => .body (l.isBody c hc)

theorem Literal.unbroken : Unbroken l.text :=
  unbroken_sign_append l.sign l.numeral.text_ne_nil l.isBody

/-- The value of a literal is the number that its text is read as. -/
theorem Literal.float?_text : Decimal.float? l.text = some l.value := by
  have hread := Decimal.float?_numeral l.sign l.numeral Text.stops_nil
  rwa [List.append_nil] at hread

theorem Literal.flat_text : flat l.text = l.value := by
  rw [flat_unbroken l.unbroken, l.float?_text]
  rfl

end Literals

namespace Tree

variable {k : Level}

theorem unbroken : ∀ t : Tree .operand, Unbroken t.spliced
  | literal l => l.unbroken
  | group inside => unbroken_plain inside.value

/-- No plus or minus splits a product. -/
theorem passes : ∀ t : Tree .product, Passes sum? t.spliced
  | factor t => t.unbroken.passes isKind_sum
  | product op h left right => by
    have hop : sum? op.symbol = none := by
      rw [sum?_symbol, h]
      rfl
    exact (left.unbroken.passes isKind_sum).operator right.passes hop

theorem flat_spliced (t : Tree k) : flat t.spliced = t.value := by
  induction t with
  | literal l => exact l.flat_text
  | group inside => exact flat_plain inside.value
  | factor t ih | term t ih => exact ih
  | product op h left right ihleft ihright =>
    rw [value, ← ihleft, ← ihright]
    exact flat_product (left.unbroken.passes isKind_product) h (product op h left right).passes
  | sum op h left right ihleft ihright =>
    rw [value, ← ihleft, ← ihright]
    exact flat_sum left.passes h right.spliced

theorem collapses (t : Tree k) : Collapses t.text t.spliced := by
  have hjoin : ∀ {left left' right right' : List Char} (op : Operator), Collapses left left' →
      Collapses right right' → Collapses (left ++ op.symbol :: right) (left' ++ op.symbol :: right') :=
    fun op hleft hright => hleft.append (hright.char (by cases op <;> decide) (by cases op <;> decide))
  induction t with
  | literal l => exact .of_numeric l.isNumeric
  | group inside ih =>
    have hgroup := ih.group
    rwa [inside.flat_spliced] at hgroup
  | factor t ih | term t ih => exact ih
  | product op h left right ihleft ihright | sum op h left right ihleft ihright =>
    exact hjoin op ihleft ihright

end Tree

/-! ### Evaluation -/

/-- Evaluating the text of a tree gives its value, wherever blanks stand in the text. -/
theorem value_eq_value_tree (t : Tree .sum) {text : String} (h : Spells text t.text) :
    value text = t.value :=
  (value_of_collapses h t.collapses).trans t.flat_spliced

/-- All four operators, and a group whose value is a negative fraction, behind a minus and in front of a
    product. -/
theorem value_eq_value_tree_nested : ∃ t : Tree .sum,
    Spells "5 - (1 - 4.5)*-2 + 7/2" t.text ∧ value "5 - (1 - 4.5)*-2 + 7/2" = t.value ∧
      t.value = -5.5 := by
  refine ⟨.sum .sub rfl (.factor (.literal ⟨.absent, .ofParts ['5'] none rfl⟩))
    (.sum .add rfl (.product .mul rfl (.group (.sum .sub rfl
        (.factor (.literal ⟨.absent, .ofParts ['1'] none rfl⟩))
        (.term (.factor (.literal ⟨.absent, .ofParts ['4'] (some ['5']) rfl⟩)))))
      (.factor (.literal ⟨.minus, .ofParts ['2'] none rfl⟩)))
      (.term (.product .div rfl (.literal ⟨.absent, .ofParts ['7'] none rfl⟩)
        (.factor (.literal ⟨.absent, .ofParts ['2'] none rfl⟩))))), ?_⟩
  exact ⟨rfl, value_eq_value_tree _ rfl, by decide +kernel⟩

end HandlerScript.Expression
