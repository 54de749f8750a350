import HandlerScript.Proofs.Number.Numerals
import HandlerScript.Proofs.Number.Shortest

/-! Numbers read back from their texts.

    The text of a finite number is a numeral: its shortest decimal, with the point where the exponent puts
    it and zeros filled in. Reading it rounds that decimal, which lies in the neighbourhood of the number,
    so the number comes back. Zeros, infinities and NaN have texts of their own, which are read as
    themselves. So every number is read back from its text, its sign included. -/

namespace HandlerScript.Decimal

open Binary64 (Fits leastExponent)
open Text (stops_nil)

section Nearest

variable {mantissa : Nat} {exponent : Int}

/-- A decimal in the neighbourhood of a number is not so small that it is answered without computing. -/
theorem not_tiny_of_contains {value : Nat} {e : Int} (hm : mantissa ≠ 0)
    (hfits : Fits mantissa exponent)
    (h : (Neighbourhood.around mantissa exponent).Contains (value * 10 ^ e)) :
    value ≠ 0 ∧ -(401 + value.log2 : Int) ≤ e := by
  have hplace : (0 : ℚ) < 2 ^ (exponent - 2) := zpow_pos two_pos _
  have hleast : (2 : ℚ) ^ (-1076 : Int) ≤ value * 10 ^ e := by
    obtain ⟨hlower, -, -⟩ := h.bounds
    have hone : (1 : ℚ) ≤ lowerEnd mantissa := by exact_mod_cast (lowerEnd_spec hm).1
    have hexponent : -1074 ≤ exponent := hfits.least_le
    calc (2 : ℚ) ^ (-1076 : Int) ≤ 2 ^ (exponent - 2) := zpow_le_zpow_right₀ one_le_two (by omega)
      _ ≤ value * 10 ^ e := by simpa using (le_div_iff₀ hplace).1 (hone.trans hlower)
  have htiny : (0 : ℚ) < 2 ^ (-1076 : Int) := zpow_pos two_pos _
  constructor
  · rintro rfl
    rw [Nat.cast_zero, zero_mul] at hleast
    exact absurd hleast htiny.not_ge
  · by_contra hlt
    have hten : (10 : ℚ) ^ e ≤ 2 ^ (-(1206 + 3 * value.log2) : Int) := ten_zpow_le (by omega) (by omega)
    have hbelow : (value * 10 ^ e : ℚ) < 2 ^ (-1076 : Int) := by
      calc (value * 10 ^ e : ℚ) < 2 ^ (value.log2 + 1 : Int) * 10 ^ e :=
            mul_lt_mul_of_pos_right (Binary64.lt_two_zpow_log2 value) (zpow_pos (by norm_num) e)
        _ ≤ 2 ^ (value.log2 + 1 : Int) * 2 ^ (-(1206 + 3 * value.log2) : Int) :=
            mul_le_mul_of_nonneg_left hten (zpow_pos two_pos _).le
        _ = 2 ^ (value.log2 + 1 - (1206 + 3 * value.log2) : Int) := by
            rw [← zpow_add₀ two_ne_zero]
            congr 1
        _ ≤ 2 ^ (-1076 : Int) := zpow_le_zpow_right₀ one_le_two (by omega)
    exact absurd hleast hbelow.not_ge

/-- A decimal in the neighbourhood of a number is read as the number. -/
theorem nearest_of_contains {value : Nat} {e : Int} (hm : mantissa ≠ 0)
    (hfits : Fits mantissa exponent)
    (h : (Neighbourhood.around mantissa exponent).Contains (value * 10 ^ e)) (he : e ≤ 0)
    (negative : Bool) : nearest negative value e = Binary64.compose negative mantissa exponent := by
  obtain ⟨hvalue, htiny⟩ := not_tiny_of_contains hm hfits h
  have hden : 0 < Nat.pow 10 (-e).toNat := Nat.pow_pos (by decide)
  have hquotient := inUnits_quotient value 1 (-e)
  rw [Int.neg_neg, Nat.one_mul, Nat.cast_one, div_one, zpow_neg, div_inv_eq_mul] at hquotient
  rw [← hquotient] at h
  rw [nearest, if_neg hvalue, if_neg (by omega), if_neg (by omega)]
  exact ofQuotient_of_contains hden hm hfits h negative

end Nearest

/-! ### Integers -/

/-- An integer is read back from its digits. -/
theorem int?_intDigits (n : Int) : int? (intDigits n) = some n := by
  have hread : ∀ s : Sign, int? (s.text ++ digits n.natAbs) =
      some (if s.negative then -(n.natAbs : Int) else n.natAbs) := by
    intro s
    have hdigits : ∀ c ∈ digits n.natAbs, isDigit c = true := fun _ => isDigit_of_mem_digits _
    have hstops : Text.Stops Sign.isSign (digits n.natAbs) := by
      intro c hc
      have hdigit := hdigits c (List.mem_of_mem_head? hc)
      rw [Sign.isSign, Bool.or_eq_false_iff, beq_eq_false_iff_ne, beq_eq_false_iff_ne]
      constructor <;> rintro rfl <;> exact absurd hdigit (by decide)
    have hnat := nat?_eq_some_iff.2 ⟨digits_ne_nil n.natAbs, hdigits, ofDigits_digits n.natAbs⟩
    simp only [int?, sign_append s hstops, hnat]
    rfl
  unfold intDigits
  split
  · rename_i hneg
    refine (hread .minus).trans (congrArg some ?_)
    exact (congrArg (- ·) (Int.ofNat_natAbs_of_nonpos (Int.le_of_lt hneg))).trans (Int.neg_neg n)
  · rename_i hpos
    exact (hread .absent).trans (congrArg some (Int.natAbs_of_nonneg (Int.not_lt.1 hpos)))

/-- An integer of 64 bits is the word that it came from. -/
theorem ofInt?_toInt (n : Int64) : Word.ofInt? n.toInt = some n := by
  have hfits : Int64.minValue.toInt ≤ n.toInt ∧ n.toInt ≤ Int64.maxValue.toInt :=
    ⟨Int64.le_iff_toInt_le.1 (Int64.minValue_le n), Int64.le_iff_toInt_le.1 (Int64.le_maxValue n)⟩
  rw [Word.ofInt?, if_pos hfits, Int64.ofInt_toInt]

/-- An integer of 64 bits is read back from its digits. -/
theorem int64?_intDigits (n : Int64) : int64? (intDigits n.toInt) = some n := by
  rw [int64?, int?_intDigits, Option.bind_some, ofInt?_toInt]

/-! ### Texts -/

section Texts

variable {ds : List Char} {e : Int}

/-- The point stands before the digits or among them, or behind zeros that follow them. -/
theorem positional_cases (hne : ds ≠ []) (e : Int) :
    let parts := positional ds (ds.length + e)
    (parts.2.length = -e ∧ ∃ k, parts.1 ++ parts.2 = List.replicate k '0' ++ ds) ∨
      (parts.2 = [] ∧ 0 ≤ e ∧ parts.1 = ds ++ List.replicate e.toNat '0') := by
  have hpos := List.length_pos_iff.2 hne
  intro parts
  by_cases hbefore : (ds.length + e : Int) ≤ 0
  · have hparts : parts = (['0'], List.replicate (-(ds.length + e)).toNat '0' ++ ds) := if_pos hbefore
    left
    rw [hparts]
    refine ⟨?_, (-(ds.length + e)).toNat + 1, by rw [List.replicate_succ]; rfl⟩
    rw [List.length_append, List.length_replicate]
    omega
  · have hparts : parts = (ds.take (ds.length + e).toNat ++
        List.replicate ((ds.length + e).toNat - ds.length) '0', ds.drop (ds.length + e).toNat) :=
      if_neg hbefore
    rw [hparts]
    by_cases hamong : e < 0
    · have hzeros : (ds.length + e).toNat - ds.length = 0 := by omega
      left
      refine ⟨?_, 0, ?_⟩
      · rw [List.length_drop]
        omega
      · rw [hzeros, List.replicate_zero, List.append_nil, List.take_append_drop, List.nil_append]
    · have hzeros : (ds.length + e).toNat - ds.length = e.toNat := by omega
      right
      exact ⟨List.drop_of_length_le (by omega), by omega,
        by rw [hzeros, List.take_of_length_le (by omega)]⟩

/-- Digits in positional notation are a numeral of the same value, with no exponent left. -/
theorem exists_numeral (hds : ∀ c ∈ ds, isDigit c = true) (hne : ds ≠ []) (e : Int) :
    ∃ n : Numeral, n.text = pointed (positional ds (ds.length + e)) ∧
      (ofDigits (n.whole ++ n.fraction) * 10 ^ (0 - (n.fraction.length : Int)) : ℚ) =
        ofDigits ds * 10 ^ e := by
  have hcases := positional_cases hne e
  have hdigit : ∀ c, c ∈ (positional ds (ds.length + e)).1 ∨ c ∈ (positional ds (ds.length + e)).2 →
      isDigit c = true := fun c hc => (mem_of_mem_positional hc).elim (hds c) fun h => h ▸ rfl
  generalize positional ds (ds.length + e) = parts at *
  obtain ⟨whole, frac⟩ := parts
  dsimp only at *
  have hnonempty : whole ≠ [] ∨ frac ≠ [] := by
    rcases hcases with ⟨-, k, heq⟩ | ⟨-, -, rfl⟩
    · have hall : whole ++ frac ≠ [] := heq ▸ List.append_ne_nil_of_right_ne_nil _ hne
      rwa [Ne, List.append_eq_nil_iff, not_and_or] at hall
    · exact .inl (List.append_ne_nil_of_left_ne_nil hne _)
  have hfraction : (if frac.isEmpty then none else some frac).getD [] = frac := by
    cases frac <;> rfl
  refine ⟨⟨whole, if frac.isEmpty then none else some frac, fun c hc => hdigit c (.inl hc), ?_, ?_⟩,
    ?_, ?_⟩
  · rw [hfraction]
    exact fun c hc => hdigit c (.inr hc)
  · rwa [hfraction]
  · cases frac with
    | nil => exact List.append_nil whole
    | cons c frac => rfl
  · simp only [Numeral.fraction, hfraction]
    rcases hcases with ⟨hlength, k, heq⟩ | ⟨rfl, he, rfl⟩
    · rw [heq, ofDigits_append, ofDigits_zeros, Nat.zero_mul, Nat.zero_add, hlength, zero_sub, neg_neg]
    · lift e to ℕ using he
      rw [List.append_nil, ofDigits_append, ofDigits_zeros, List.length_replicate, Int.toNat_natCast]
      simp

/-- The sign in front of the text of a number. -/
def Sign.ofNegative (negative : Bool) : Sign := if negative then .minus else .absent

theorem signed_eq (negative : Bool) (cs : List Char) :
    signed negative cs = (Sign.ofNegative negative).text ++ cs := by
  cases negative <;> rfl

theorem plain_finite {x : Float} {negative : Bool} {mantissa : Nat} {exponent : Int}
    (h : Binary64.parts x = .finite negative mantissa exponent) (hm : mantissa ≠ 0) :
    let d := shortest .up mantissa exponent
    plain x = signed negative
      (pointed (positional (digits d.value) ((digits d.value).length + d.exponent))) := by
  cases mantissa with
  | zero => exact absurd rfl hm
  | succ mantissa =>
    rw [plain, h]
    rfl

/-- Every number is read back from its text. -/
theorem float?_plain (x : Float) : float? (plain x) = some x := by
  cases hparts : Binary64.parts x with
  | nan =>
    rw [← Binary64.nan_parts hparts]
    decide
  | infinite negative =>
    rw [← Binary64.infinity_parts hparts]
    cases negative <;> decide
  | finite negative mantissa exponent =>
    obtain ⟨hfits, -⟩ := Binary64.of_parts_finite hparts
    rw [← Binary64.compose_parts hparts]
    cases mantissa with
    | zero =>
      have hexponent : exponent = leastExponent := hfits.filled.resolve_left (by decide)
      rw [hexponent]
      cases negative <;> decide
    | succ mantissa =>
      have hm : mantissa + 1 ≠ 0 := Nat.succ_ne_zero mantissa
      have hshortest := contains_shortest .up hm hfits
      rw [Binary64.compose_parts hparts, plain_finite hparts hm, ← Binary64.compose_parts hparts]
      generalize shortest .up (mantissa + 1) exponent = d at *
      obtain ⟨n, htext, hvalue⟩ := exists_numeral (fun c hc => isDigit_of_mem_digits c hc)
        (digits_ne_nil d.value) d.exponent
      rw [ofDigits_digits] at hvalue
      have hnegative : (Sign.ofNegative negative).negative = negative := by cases negative <;> rfl
      have hread := float?_numeral (Sign.ofNegative negative) n stops_nil
      rw [List.append_nil, htext, ← signed_eq, hnegative] at hread
      rw [hread, exponent?, Option.map_some]
      exact congrArg some (nearest_of_contains hm hfits (hvalue ▸ hshortest) (by omega) negative)

end Texts

end HandlerScript.Decimal
