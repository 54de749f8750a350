import HandlerScript.Proofs.Expression.Trees

/-! Groups with a minus in front.

    The minus is a sign, and it comes to stand before the text of the value of the group. If the value has no
    minus of its own, that makes the text of the negated value. If it has one, the text begins with two
    signs and is no number, so it counts as zero. That is right for negative zero only, whose negation is
    zero. -/

namespace HandlerScript.Expression

open Decimal (float? plain)

/-! ### The text behind the minus -/

/-- What a minus makes of the value of the group behind it. -/
def negatedGroup (x : Float) : Float := if x < 0.0 then 0.0 else -x

section Texts

variable {x : Float} {cs : List Char}

/-- Two signs are not read. -/
theorem float?_two_signs (cs : List Char) : float? ('-' :: '-' :: cs) = none := by
  have hword : Decimal.word? true ('-' :: cs) = none := by
    by_contra hne
    obtain ⟨x, hx⟩ := Option.ne_none_iff_exists'.1 hne
    have hletter := (Decimal.isAlpha_of_word? hx).2 '-' List.mem_cons_self
    exact absurd hletter (by decide)
  exact hword

variable {mantissa : Nat} {exponent : Int}

theorem exists_plain_of_negative (h : Binary64.parts x = .finite true mantissa exponent) :
    ∃ cs, plain x = '-' :: cs := by
  unfold plain
  rw [h]
  cases mantissa with
  | zero => exact ⟨_, rfl⟩
  | succ mantissa => exact ⟨_, rfl⟩

theorem plain_neg (h : Binary64.parts x = .finite false mantissa exponent) :
    plain (-x) = '-' :: plain x := by
  have hneg : Binary64.parts (-x) = .finite true mantissa exponent := by
    rw [Binary64.parts_neg, h]
    rfl
  unfold plain
  rw [h, hneg]
  cases mantissa with
  | zero => rfl
  | succ mantissa => rfl

theorem flat_minus_plain (x : Float) : flat ('-' :: plain x) = negatedGroup x := by
  rw [flat_unbroken (unbroken_plain x).minus]
  cases hparts : Binary64.parts x with
  | nan =>
    rw [← Binary64.nan_parts hparts]
    decide +kernel
  | infinite negative =>
    rw [← Binary64.infinity_parts hparts]
    cases negative <;> decide +kernel
  | finite negative mantissa exponent =>
    cases negative with
    | true =>
      -- the text of the value has a minus, and with the one in front of it there are two
      obtain ⟨cs, hplain⟩ := exists_plain_of_negative hparts
      rw [hplain, float?_two_signs, Option.getD_none, negatedGroup]
      split
      · rfl
      · rename_i hlt
        have hzero : mantissa = 0 := by
          by_contra hne
          refine hlt ((Binary64.lt_zero_iff x).2 ?_)
          rw [hparts]
          exact bne_iff_ne.2 hne
        subst hzero
        rw [Binary64.eq_neg_zero hparts]
        decide +kernel
    | false =>
      have hlt : ¬ x < 0.0 := by
        rw [Binary64.lt_zero_iff, hparts]
        exact Bool.false_ne_true
      rw [← plain_neg hparts, Decimal.float?_plain, Option.getD_some, negatedGroup, if_neg hlt]

/-- Only for negative values the minus does not negate. -/
theorem negatedGroup_eq_neg_iff (x : Float) : negatedGroup x = -x ↔ ¬ x < 0.0 := by
  constructor
  · intro heq hlt
    have hbelow := (Binary64.lt_zero_iff x).1 hlt
    rw [negatedGroup, if_pos hlt] at heq
    have hparts := Binary64.parts_neg x
    rw [← heq] at hparts
    have hzero : Binary64.parts 0.0 = .finite false 0 Binary64.leastExponent := by decide +kernel
    rw [hzero] at hparts
    cases hx : Binary64.parts x with
    | nan =>
      rw [hx] at hbelow
      cases hbelow
    | infinite negative =>
      rw [hx] at hparts
      cases hparts
    | finite negative mantissa exponent =>
      rw [hx] at hparts hbelow
      obtain ⟨-, rfl, -⟩ := Binary64.Parts.finite.inj hparts
      exact bne_iff_ne.1 (Bool.and_eq_true_iff.1 hbelow).2 rfl
  · exact fun hlt => if_neg hlt

end Texts

/-! ### Evaluation -/

theorem Matched.filter {cs : List Char} (h : Matched cs) :
    Matched (cs.filter fun c => !Text.isBlank c) := by
  induction h with
  | nil => exact .nil
  | @char c cs hopen hclose _ ih =>
    rw [List.filter_cons]
    split
    · exact ih.char hopen hclose
    · exact ih
  | @nest inside cs _ _ ih ih' =>
    rw [List.filter_append]
    exact ih.nest ih'

section Values

variable {e : String}

/-- What a text with matching parentheses spells can be collapsed, and its value is that of what is left. -/
theorem Matched.exists_collapses (h : Matched e.toList) :
    ∃ cs left, Spells e cs ∧ Collapses cs left ∧ flat left = value e := by
  obtain ⟨left, hcollapses⟩ := h.filter.collapses
  exact ⟨_, left, rfl, hcollapses, (value_of_collapses rfl hcollapses).symm⟩

theorem value_minus_group (h : Matched e.toList) : value ("-(" ++ e ++ ")") = negatedGroup (value e) := by
  obtain ⟨cs, left, hspells, hcollapses, hvalue⟩ := h.exists_collapses
  have hopen : Spells "-(" ['-', '('] := rfl
  have hclose : Spells ")" [')'] := rfl
  have hsign : Collapses _ ('-' :: plain (flat left)) := hcollapses.group.char (by decide) (by decide)
  rw [value_of_collapses ((hopen.append hspells).append hclose) hsign, flat_minus_plain, hvalue]

theorem value_times_minus_group (h : Matched e.toList) (a : Literal) :
    value (String.ofList a.text ++ "*-(" ++ e ++ ")") = a.value * negatedGroup (value e) := by
  obtain ⟨cs, left, hspells, hcollapses, hvalue⟩ := h.exists_collapses
  have hopen : Spells "*-(" ['*', '-', '('] := rfl
  have hclose : Spells ")" [')'] := rfl
  have hall := (((Spells.of_numeric a.isNumeric).append hopen).append hspells).append hclose
  rw [List.append_assoc, List.append_assoc] at hall
  have hgroup : Collapses _ ('*' :: '-' :: plain (flat left)) :=
    (hcollapses.group.char (by decide) (by decide)).char (by decide) (by decide)
  have hsign := (Collapses.of_numeric a.isNumeric).append hgroup
  have hpasses : Passes sum? (a.text ++ Operator.mul.symbol :: '-' :: plain (flat left)) :=
    (a.unbroken.passes isKind_sum).operator ((unbroken_plain _).minus.passes isKind_sum) rfl
  calc value (String.ofList a.text ++ "*-(" ++ e ++ ")")
      _ = flat (a.text ++ '*' :: '-' :: plain (flat left)) := value_of_collapses hall hsign
      _ = flat a.text * flat ('-' :: plain (flat left)) :=
        flat_product (a.unbroken.passes isKind_product) rfl hpasses
      _ = a.value * negatedGroup (value e) := by rw [flat_minus_plain, a.flat_text, hvalue]

/-- A minus in front of a group negates the value of the group, but of a negative value it makes zero. -/
theorem value_signed_group (h : Matched e.toList) :
    value ("-(" ++ e ++ ")") = negatedGroup (value e) ∧
      (∀ a : Literal, value (String.ofList a.text ++ "*-(" ++ e ++ ")") =
        a.value * negatedGroup (value e)) ∧
      (value ("-(" ++ e ++ ")") = -value e ↔ ¬ value e < 0.0) :=
  ⟨value_minus_group h, value_times_minus_group h,
    (value_minus_group h).symm ▸ negatedGroup_eq_neg_iff (value e)⟩

theorem value_signed_group_sum : value "-(2+3)" = -5.0 ∧ value "2*-(2+3)" = -10.0 := by
  have hmatched : Matched "2+3".toList :=
    .char (by decide) (by decide) (.char (by decide) (by decide) (.char (by decide) (by decide) .nil))
  obtain ⟨hminus, htimes, -⟩ := value_signed_group hmatched
  have hproduct := htimes ⟨.absent, .ofParts ['2'] none rfl⟩
  constructor
  · exact hminus.trans (by decide +kernel)
  · exact hproduct.trans (by decide +kernel)

/-- A minus in front of a group with a negative value does not negate it. -/
theorem signed_group_misses_negation : value "1-4" = -3.0 ∧ value "-(1-4)" = 0.0 ∧
    value "-(1-4)" ≠ -value "1-4" ∧ value "2*-(1-4)" ≠ 2.0 * -value "1-4" := by
  decide +kernel

end Values

end HandlerScript.Expression
