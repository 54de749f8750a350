import HandlerScript.Expression
import HandlerScript.Proofs.Number.Numerals

/-! Where arithmetic is split.

    An operator is looked for from the front, and a plus or minus behind an opening character is passed
    over as a sign. So the search passes over a text as a whole if the only operators in it are signs, and
    if it passes over two texts it passes over them with an operator of another kind between. It ends at
    the operator behind such a text, since the text does not end in an opening character. -/

namespace HandlerScript.Expression

/-! ### Operators -/

/-- The character that an operator is written with. -/
def Operator.symbol : Operator → Char
  | .add => '+'
  | .sub => '-'
  | .mul => '*'
  | .div => '/'

/-- Whether an operator is looked for first. -/
def Operator.isSum : Operator → Bool
  | .add | .sub => true
  | .mul | .div => false

/-- A kind of operators. Only plus and minus can be signs. -/
structure IsKind (op? : Char → Option Operator) : Prop where
  opens : ∀ c, opensOperand c = false → op? c = none
  sign : ∀ c, product? c = none → op? c ≠ none → (sum? c).isSome = true

section Kinds

variable {c : Char}

theorem sum?_symbol (op : Operator) : sum? op.symbol = if op.isSum then some op else none := by
  cases op <;> rfl

theorem product?_symbol (op : Operator) : product? op.symbol = if op.isSum then none else some op := by
  cases op <;> rfl

theorem opensOperand_symbol (op : Operator) : opensOperand op.symbol = true := by
  cases op <;> rfl

theorem exists_of_sum? (h : (sum? c).isSome = true) :
    ∃ op : Operator, op.isSum = true ∧ c = op.symbol := by
  unfold sum? at h
  split at h
  · exact ⟨.add, rfl, rfl⟩
  · exact ⟨.sub, rfl, rfl⟩
  · cases h

theorem exists_of_product? (h : (product? c).isSome = true) : ∃ op : Operator, c = op.symbol := by
  unfold product? at h
  split at h
  · exact ⟨.mul, rfl⟩
  · exact ⟨.div, rfl⟩
  · cases h

theorem opensOperand_of_sum? (h : (sum? c).isSome = true) : opensOperand c = true := by
  obtain ⟨op, -, rfl⟩ := exists_of_sum? h
  exact opensOperand_symbol op

theorem product?_of_sum? (h : (sum? c).isSome = true) : product? c = none := by
  obtain ⟨op, hop, rfl⟩ := exists_of_sum? h
  rw [product?_symbol, if_pos hop]

theorem isKind_sum : IsKind sum? where
  opens c h := by
    by_contra hne
    rw [opensOperand_of_sum? (Option.isSome_iff_ne_none.2 hne)] at h
    cases h
  sign _ _ h := Option.isSome_iff_ne_none.2 h

theorem isKind_product : IsKind product? where
  opens c h := by
    by_contra hne
    obtain ⟨op, rfl⟩ := exists_of_product? (Option.isSome_iff_ne_none.2 hne)
    rw [opensOperand_symbol] at h
    cases h
  sign _ h h' := absurd h h'

end Kinds

/-! ### Passing over a text -/

/-- A division with a text put in front of it. -/
def prepend (front : List Char) (division : List Char × Operator × List Char) :
    List Char × Operator × List Char :=
  (front ++ division.1, division.2)

section Search

variable {op? : Char → Option Operator} {prev c : Char} {cs : List Char} {op : Operator}

theorem splitAfter_none (h : op? c = none) :
    splitAfter op? prev (c :: cs) = (splitAfter op? c cs).map (prepend [c]) := by
  rw [splitAfter, h]
  rfl

theorem splitAfter_sign (h : (sum? c).isSome = true) (hprev : opensOperand prev = true) :
    splitAfter op? prev (c :: cs) = (splitAfter op? c cs).map (prepend [c]) := by
  rw [splitAfter]
  split
  · rw [h, hprev]
    rfl
  · rfl

theorem splitAfter_operator (h : op? c = some op) (hprev : opensOperand prev = false) :
    splitAfter op? prev (c :: cs) = some ([], op, cs) := by
  rw [splitAfter, h, hprev, Bool.and_false]
  rfl

theorem map_prepend (front back : List Char) (division : Option (List Char × Operator × List Char)) :
    (division.map (prepend back)).map (prepend front) = division.map (prepend (front ++ back)) := by
  rw [Option.map_map]
  congr 1
  funext d
  simp [prepend]

end Search

/-- The search for a kind of operators passes over a text, wherever an operand may begin. -/
structure Passes (op? : Char → Option Operator) (cs : List Char) : Prop where
  front : ∀ c ∈ cs.head?, product? c = none
  nonempty : cs ≠ []
  behind : ∃ last, opensOperand last = false ∧ ∀ prev rest, opensOperand prev = true →
    splitAfter op? prev (cs ++ rest) = (splitAfter op? last rest).map (prepend cs)

/-- A text whose only operators are signs in front of it, as many as there may be. -/
def Unbroken (cs : List Char) : Prop :=
  ∃ signs body, cs = signs ++ body ∧ body ≠ [] ∧ (∀ c ∈ signs, (sum? c).isSome = true) ∧
    ∀ c ∈ body, opensOperand c = false

section Passing

variable {op? : Char → Option Operator} {cs left right body : List Char} {op : Operator}

/-- The search passes over characters that are no operators. -/
theorem splitAfter_body (hkind : IsKind op?) (h : ∀ c ∈ body, opensOperand c = false) (prev : Char)
    (rest : List Char) : splitAfter op? prev (body ++ rest) =
      (splitAfter op? (body.getLastD prev) rest).map (prepend body) := by
  induction body generalizing prev with
  | nil => exact Option.map_id'.symm
  | cons c body ih =>
    have hc : op? c = none := hkind.opens c (h c List.mem_cons_self)
    rw [List.cons_append, splitAfter_none hc, ih (fun d hd => h d (List.mem_cons_of_mem c hd)) c,
      map_prepend, List.getLastD_cons]
    rfl

theorem Unbroken.passes (h : Unbroken cs) (hkind : IsKind op?) : Passes op? cs := by
  obtain ⟨signs, body, rfl, hne, hsigns, hbody⟩ := h
  refine ⟨?_, List.append_ne_nil_of_right_ne_nil signs hne, body.getLast hne,
    hbody _ (List.getLast_mem hne), ?_⟩
  · intro c hc
    rcases List.mem_append.1 (List.mem_of_mem_head? hc) with hmem | hmem
    · exact product?_of_sum? (hsigns c hmem)
    · exact isKind_product.opens c (hbody c hmem)
  · intro prev rest hprev
    -- every sign opens an operand, so the next one is a sign again
    induction signs generalizing prev with
    | nil =>
      rw [List.nil_append, splitAfter_body hkind hbody, List.getLastD_eq_getLast?,
        List.getLast?_eq_some_getLast hne]
      rfl
    | cons c signs ih =>
      have hc : (sum? c).isSome = true := hsigns c List.mem_cons_self
      rw [List.cons_append, List.cons_append, splitAfter_sign hc hprev,
        ih (fun d hd => hsigns d (List.mem_cons_of_mem c hd)) c (opensOperand_of_sum? hc), map_prepend]
      rfl

/-- Two texts with an operator of another kind between. -/
theorem Passes.operator (hleft : Passes op? left) (hright : Passes op? right)
    (hop : op? op.symbol = none) : Passes op? (left ++ op.symbol :: right) := by
  obtain ⟨hfront, hne, last, hlast, hbehind⟩ := hleft
  obtain ⟨-, -, last', hlast', hbehind'⟩ := hright
  refine ⟨?_, List.append_ne_nil_of_left_ne_nil hne _, last', hlast', ?_⟩
  · rw [List.head?_append, List.head?_eq_some_head hne, Option.some_or, ← List.head?_eq_some_head hne]
    exact hfront
  · intro prev rest hprev
    rw [List.append_assoc, hbehind prev _ hprev, List.cons_append, splitAfter_none hop,
      hbehind' op.symbol rest (opensOperand_symbol op), map_prepend, map_prepend, List.append_assoc]
    rfl

/-- A text that the search passes over does not begin with an operator that ends it. -/
theorem Passes.split_append (h : Passes op? cs) (hkind : IsKind op?) (rest : List Char) :
    ∃ last, opensOperand last = false ∧
      split op? (cs ++ rest) = (splitAfter op? last rest).map (prepend cs) := by
  obtain ⟨hfront, hne, last, hlast, hbehind⟩ := h
  refine ⟨last, hlast, ?_⟩
  rw [← hbehind '(' rest rfl]
  cases cs with
  | nil => exact absurd rfl hne
  | cons c cs =>
    cases hc : op? c with
    | none => exact (splitAfter_none hc).symm
    | some op =>
      have hsign := hkind.sign c (hfront c rfl) (by rw [hc]; exact Option.some_ne_none op)
      exact (splitAfter_sign hsign rfl).symm

theorem Passes.split_eq_none (h : Passes op? cs) (hkind : IsKind op?) : split op? cs = none := by
  obtain ⟨last, -, hsplit⟩ := h.split_append hkind []
  rwa [List.append_nil] at hsplit

theorem Passes.split_eq_some (h : Passes op? left) (hkind : IsKind op?) (hop : op? op.symbol = some op)
    (right : List Char) : split op? (left ++ op.symbol :: right) = some (left, op, right) := by
  obtain ⟨last, hlast, hsplit⟩ := h.split_append hkind (op.symbol :: right)
  rw [hsplit, splitAfter_operator hop hlast, Option.map_some, prepend, List.append_nil]

end Passing

/-! ### Values -/

section Values

variable {cs left right : List Char} {op : Operator}

theorem flat_of_split_sum (h : split sum? cs = some (left, op, right)) :
    flat cs = op.apply (flat left) (flat right) := by
  rw [flat]
  split
  · rename_i heq
    obtain ⟨rfl, rfl, rfl⟩ : left = _ ∧ op = _ ∧ right = _ := by simpa using h.symm.trans heq
    rfl
  · rename_i heq
    cases h.symm.trans heq

theorem flat_of_split_product (hsum : split sum? cs = none)
    (h : split product? cs = some (left, op, right)) : flat cs = op.apply (flat left) (flat right) := by
  rw [flat]
  split
  · rename_i heq
    cases hsum.symm.trans heq
  · split
    · rename_i heq
      obtain ⟨rfl, rfl, rfl⟩ : left = _ ∧ op = _ ∧ right = _ := by simpa using h.symm.trans heq
      rfl
    · rename_i heq
      cases h.symm.trans heq

theorem flat_of_split_none (hsum : split sum? cs = none) (hproduct : split product? cs = none) :
    flat cs = (Decimal.float? cs).getD 0.0 := by
  rw [flat]
  split
  · rename_i heq
    cases hsum.symm.trans heq
  · split
    · rename_i heq
      cases hproduct.symm.trans heq
    · rfl

/-- Sums are evaluated from the first plus or minus that is not a sign. -/
theorem flat_sum (hleft : Passes sum? left) (hop : op.isSum = true) (right : List Char) :
    flat (left ++ op.symbol :: right) = op.apply (flat left) (flat right) :=
  flat_of_split_sum (hleft.split_eq_some isKind_sum (by rw [sum?_symbol, hop]; rfl) right)

/-- Products are evaluated from their first operator. -/
theorem flat_product (hleft : Passes product? left) (hop : op.isSum = false)
    (hsum : Passes sum? (left ++ op.symbol :: right)) :
    flat (left ++ op.symbol :: right) = op.apply (flat left) (flat right) :=
  flat_of_split_product (hsum.split_eq_none isKind_sum)
    (hleft.split_eq_some isKind_product (by rw [product?_symbol, hop]; rfl) right)

/-- A text without binary operators is read as a number, zero if it is none. -/
theorem flat_unbroken (h : Unbroken cs) : flat cs = (Decimal.float? cs).getD 0.0 :=
  flat_of_split_none ((h.passes isKind_sum).split_eq_none isKind_sum)
    ((h.passes isKind_product).split_eq_none isKind_product)

end Values

end HandlerScript.Expression
