import HandlerScript.Number.Shortest
import HandlerScript.Proofs.Number.Bits
import Mathlib.Algebra.Order.Field.Power
import Mathlib.Algebra.Order.Field.Rat
import Mathlib.Tactic.FieldSimp
import Mathlib.Tactic.Linarith
import Mathlib.Tactic.Positivity
import Mathlib.Tactic.Ring

/-! Rounding a quotient.

    A quotient is scaled so that its integer part has 53 digits, or as many as the least exponent leaves,
    and is rounded to an integer there. What lies closer to a number than to its neighbours is rounded to
    that number, and so is the middle between two if the mantissa is even. Below a power of two the next
    place is half as wide; what lies there is rounded in that place, and its mantissa carries. -/

namespace HandlerScript.Binary64

section Rounding

variable {num den n d k : Nat} {e : Int}

/-- Scaling divides a quotient by a power of two. -/
theorem scale_quotient (num den : Nat) (e : Int) :
    ((scale num den e).1 : ℚ) / (scale num den e).2 = num / den / 2 ^ e := by
  simp only [scale, Nat.shiftLeft_eq, Nat.cast_mul, Nat.cast_pow, Nat.cast_ofNat]
  rcases Int.le_total 0 e with h | h
  · lift e to ℕ using h
    rw [show (-(e : Int)).toNat = 0 by omega, Int.toNat_natCast, pow_zero, mul_one, zpow_natCast,
      div_div]
  · obtain ⟨k, rfl⟩ : ∃ k : Nat, e = -k := ⟨(-e).toNat, by omega⟩
    rw [show (-(k : Int)).toNat = 0 by omega, Int.neg_neg, Int.toNat_natCast, pow_zero, mul_one, zpow_neg,
      zpow_natCast, div_inv_eq_mul, div_mul_eq_mul_div]

theorem scale_den_pos (h : 0 < den) (num : Nat) (e : Int) : 0 < (scale num den e).2 := by
  simp only [scale, Nat.shiftLeft_eq]
  positivity

theorem scale_lt_iff (h : 0 < den) (num : Nat) (e : Int) :
    (scale num den e).1 < (scale num den e).2 ↔ (num / den : ℚ) < 2 ^ e := by
  have hpos : (0 : ℚ) < (scale num den e).2 := by exact_mod_cast scale_den_pos h num e
  have hplace : (0 : ℚ) < 2 ^ e := zpow_pos two_pos e
  calc (scale num den e).1 < (scale num den e).2
      ↔ ((scale num den e).1 : ℚ) / (scale num den e).2 < 1 := by rw [div_lt_one hpos, Nat.cast_lt]
    _ ↔ (num / den : ℚ) < 2 ^ e := by rw [scale_quotient, div_lt_one hplace]

theorem two_zpow_log2_le {n : Nat} (h : 0 < n) : (2 : ℚ) ^ (n.log2 : Int) ≤ n := by
  rw [zpow_natCast]
  exact_mod_cast Nat.log2_self_le (Nat.ne_of_gt h)

theorem lt_two_zpow_log2 (n : Nat) : (n : ℚ) < 2 ^ (n.log2 + 1 : Int) := by
  have : n < 2 ^ (n.log2 + 1) := Nat.lt_log2_self
  exact_mod_cast this

/-- The binary logarithms leave two places for the leading digit of a quotient. -/
theorem quotient_log2 (hnum : 0 < num) (hden : 0 < den) :
    (2 : ℚ) ^ ((num.log2 : Int) - den.log2 - 1) ≤ num / den ∧
      (num / den : ℚ) < 2 ^ ((num.log2 : Int) - den.log2 + 1) := by
  have hden' : (0 : ℚ) < den := by exact_mod_cast hden
  rw [le_div_iff₀ hden', div_lt_iff₀ hden']
  constructor
  · calc (2 : ℚ) ^ ((num.log2 : Int) - den.log2 - 1) * den
        ≤ 2 ^ ((num.log2 : Int) - den.log2 - 1) * 2 ^ (den.log2 + 1 : Int) :=
          mul_le_mul_of_nonneg_left (lt_two_zpow_log2 den).le (zpow_pos two_pos _).le
      _ = 2 ^ (num.log2 : Int) := by rw [← zpow_add₀ two_ne_zero]; congr 1; omega
      _ ≤ num := two_zpow_log2_le hnum
  · calc (num : ℚ) < 2 ^ (num.log2 + 1 : Int) := lt_two_zpow_log2 num
      _ = 2 ^ ((num.log2 : Int) - den.log2 + 1) * 2 ^ (den.log2 : Int) := by
          rw [← zpow_add₀ two_ne_zero]; congr 1; omega
      _ ≤ 2 ^ ((num.log2 : Int) - den.log2 + 1) * den :=
          mul_le_mul_of_nonneg_left (two_zpow_log2_le hden) (zpow_pos two_pos _).le

/-- The last place is the one in which a quotient has 53 digits, or the least one. -/
theorem lastPlace_spec (hnum : 0 < num) (hden : 0 < den) :
    leastExponent ≤ lastPlace num den ∧ (num / den : ℚ) < 2 ^ (lastPlace num den + 53) ∧
      (lastPlace num den = leastExponent ∨ (2 : ℚ) ^ (lastPlace num den + 52) ≤ num / den) := by
  obtain ⟨hlow, hhigh⟩ := quotient_log2 hnum hden
  have hmono : ∀ {a b : Int}, a ≤ b → (2 : ℚ) ^ a ≤ 2 ^ b := zpow_le_zpow_right₀ one_le_two
  simp only [lastPlace, scale_lt_iff hden]
  generalize (num.log2 : Int) - den.log2 = e at *
  split
  · rename_i hlt
    refine ⟨le_max_right _ _, hlt.trans_le (hmono (by omega)), ?_⟩
    rcases max_choice (e - 1 - 52) leastExponent with h | h
    · right
      rw [h, show e - 1 - 52 + 52 = e - 1 by omega]
      exact hlow
    · exact .inl h
  · rename_i hge
    refine ⟨le_max_right _ _, hhigh.trans_le (hmono (by omega)), ?_⟩
    rcases max_choice (e - 52) leastExponent with h | h
    · right
      rw [h, show e - 52 + 52 = e by omega]
      exact not_lt.1 hge
    · exact .inl h

theorem lastPlace_eq (hnum : 0 < num) (hden : 0 < den) (hleast : leastExponent ≤ e)
    (hhigh : (num / den : ℚ) < 2 ^ (e + 53))
    (hlow : e = leastExponent ∨ (2 : ℚ) ^ (e + 52) ≤ num / den) : lastPlace num den = e := by
  obtain ⟨hleast', hhigh', hlow'⟩ := lastPlace_spec hnum hden
  have hlt : ∀ {a b : Int}, (2 : ℚ) ^ a ≤ num / den → (num / den : ℚ) < 2 ^ b → a < b :=
    fun ha hb => (zpow_lt_zpow_iff_right₀ one_lt_two).1 (ha.trans_lt hb)
  rcases hlow with rfl | hlow
  · rcases hlow' with h | h
    · exact h
    · have := hlt h hhigh
      omega
  · have := hlt hlow hhigh'
    rcases hlow' with h | h
    · omega
    · have := hlt h hhigh
      omega

/-- A quotient is rounded to the natural that is nearest to it; one in the middle of two, to the even
    one. -/
theorem roundHalfEven_eq (hd : 0 < d) (hlow : (k - 1 / 2 : ℚ) ≤ n / d)
    (hhigh : (n / d : ℚ) ≤ k + 1 / 2)
    (heven : k % 2 = 0 ∨ (k - 1 / 2 : ℚ) < n / d ∧ (n / d : ℚ) < k + 1 / 2) :
    roundHalfEven n d = k := by
  have hd' : (0 : ℚ) < d := by exact_mod_cast hd
  rw [le_div_iff₀ hd', div_le_iff₀ hd', lt_div_iff₀ hd', div_lt_iff₀ hd'] at *
  have hlow' : 2 * (d * k) ≤ 2 * n + d := by
    have : (2 * (d * k) : ℚ) ≤ 2 * n + d := by linarith
    exact_mod_cast this
  have hhigh' : 2 * n ≤ 2 * (d * k) + d := by
    have : (2 * n : ℚ) ≤ 2 * (d * k) + d := by linarith
    exact_mod_cast this
  have heven' : k % 2 = 0 ∨ 2 * (d * k) < 2 * n + d ∧ 2 * n < 2 * (d * k) + d := by
    refine heven.imp_right fun ⟨h, h'⟩ => ⟨?_, ?_⟩
    · have : (2 * (d * k) : ℚ) < 2 * n + d := by linarith
      exact_mod_cast this
    · have : (2 * n : ℚ) < 2 * (d * k) + d := by linarith
      exact_mod_cast this
  clear hlow hhigh heven
  have hmod := Nat.mod_lt n hd
  rw [← Nat.div_add_mod n d] at hlow' hhigh' heven'
  unfold roundHalfEven
  generalize n / d = q at *
  generalize n % d = r at *
  have hk : k = q ∨ k = q + 1 := by
    have hge : q ≤ k := by
      by_contra hlt
      nlinarith
    have hle : k ≤ q + 1 := by
      by_contra hgt
      nlinarith
    omega
  dsimp only
  rcases hk with rfl | rfl
  · generalize d * k = p at *
    split_ifs <;> omega
  · rw [Nat.mul_add, Nat.mul_one] at *
    generalize d * q = p at *
    split_ifs <;> omega

/-- A quotient is rounded in its last place. -/
theorem ofQuotient_eq {t : ℚ} (hden : 0 < den) (ht : (num / den / 2 ^ e : ℚ) = t) (hpos : 0 < t)
    (hleast : leastExponent ≤ e) (hfull : t < 2 ^ 53) (hfilled : e = leastExponent ∨ 2 ^ 52 ≤ t)
    (hlow : (k - 1 / 2 : ℚ) ≤ t) (hhigh : t ≤ k + 1 / 2)
    (heven : k % 2 = 0 ∨ (k - 1 / 2 : ℚ) < t ∧ t < k + 1 / 2) (negative : Bool) :
    ofQuotient negative num den = compose negative k e := by
  have hunit : (0 : ℚ) < 2 ^ e := zpow_pos two_pos e
  have hvalue : (num / den : ℚ) = t * 2 ^ e := (div_eq_iff hunit.ne').1 ht
  have hnum : 0 < num := by
    rw [Nat.pos_iff_ne_zero]
    rintro rfl
    rw [Nat.cast_zero, zero_div, zero_div] at ht
    exact hpos.ne ht
  have hplace : lastPlace num den = e := by
    refine lastPlace_eq hnum hden hleast ?_ (hfilled.imp_right fun h => ?_)
    · rw [hvalue, zpow_add₀ two_ne_zero, mul_comm]
      exact mul_lt_mul_of_pos_left hfull hunit
    · rw [hvalue, zpow_add₀ two_ne_zero, mul_comm]
      exact mul_le_mul_of_nonneg_right h hunit.le
  rw [← scale_quotient] at ht
  subst ht
  rw [ofQuotient, if_neg (Nat.ne_of_gt hnum)]
  dsimp only
  rw [hplace, roundHalfEven_eq (scale_den_pos hden num e) hlow hhigh heven]

/-- A mantissa that has carried is that of the next exponent. -/
theorem compose_carry (negative : Bool) (h : leastExponent < e) :
    compose negative (2 ^ 53) (e - 1) = compose negative (2 ^ 52) e := by
  have hbits : (e - 1 - leastExponent).toNat * leadingBit + 2 ^ 53 =
      (e - leastExponent).toNat * leadingBit + 2 ^ 52 := by
    rw [show leadingBit = 4503599627370496 from rfl]
    omega
  rw [compose, hbits, compose]

end Rounding

end HandlerScript.Binary64

namespace HandlerScript.Decimal

open Binary64 (Fits leastExponent)

/-- The rationals in a neighbourhood. -/
def Neighbourhood.Contains (i : Neighbourhood) (q : ℚ) : Prop :=
  if i.closed then (i.low / i.den : ℚ) ≤ q ∧ q ≤ i.high / i.den
  else (i.low / i.den : ℚ) < q ∧ q < i.high / i.den

section Neighbourhoods

variable {mantissa : Nat} {exponent : Int} {q : ℚ}

/-- The ends of a neighbourhood, and the number in it, in quarters of the last place. -/
theorem Neighbourhood.around_quotient (mantissa : Nat) (exponent : Int) (n : Nat) :
    ((n * 1 <<< (exponent - 2).toNat : ℕ) / (around mantissa exponent).den : ℚ) =
      n * 2 ^ (exponent - 2) := by
  have h := Binary64.scale_quotient 1 1 (2 - exponent)
  rw [Nat.cast_one, div_one, one_div, ← zpow_neg, Int.neg_sub] at h
  rw [← h, Nat.cast_mul, mul_div_assoc, Binary64.scale, Int.neg_sub]
  rfl

/-- The lower end of a neighbourhood in quarters of the last place. -/
def lowerEnd (mantissa : Nat) : Nat :=
  if mantissa = Binary64.leadingBit then 4 * mantissa - 1 else 4 * mantissa - 2

theorem Neighbourhood.contains_around_iff : (around mantissa exponent).Contains q ↔
    if mantissa % 2 = 0 then
      (lowerEnd mantissa : ℚ) ≤ q / 2 ^ (exponent - 2) ∧
        q / 2 ^ (exponent - 2) ≤ (4 * mantissa + 2 : ℕ)
    else
      (lowerEnd mantissa : ℚ) < q / 2 ^ (exponent - 2) ∧
        q / 2 ^ (exponent - 2) < (4 * mantissa + 2 : ℕ) := by
  have hunit : (0 : ℚ) < 2 ^ (exponent - 2) := zpow_pos two_pos _
  rw [le_div_iff₀ hunit, div_le_iff₀ hunit, lt_div_iff₀ hunit, div_lt_iff₀ hunit, Contains,
    ← around_quotient mantissa, ← around_quotient mantissa]
  simp only [around, decide_eq_true_eq, lowerEnd]

/-- Between the ends, and not at them if the mantissa is odd. -/
theorem Neighbourhood.Contains.bounds (h : (around mantissa exponent).Contains q) :
    (lowerEnd mantissa : ℚ) ≤ q / 2 ^ (exponent - 2) ∧
      q / 2 ^ (exponent - 2) ≤ (4 * mantissa + 2 : ℕ) ∧
      (mantissa % 2 = 0 ∨ (lowerEnd mantissa : ℚ) < q / 2 ^ (exponent - 2) ∧
        q / 2 ^ (exponent - 2) < (4 * mantissa + 2 : ℕ)) := by
  rw [contains_around_iff] at h
  split at h
  · rename_i heven
    exact ⟨h.1, h.2, .inl heven⟩
  · exact ⟨h.1.le, h.2.le, .inr h⟩

theorem lowerEnd_spec (hm : mantissa ≠ 0) :
    0 < lowerEnd mantissa ∧ 4 * mantissa ≤ lowerEnd mantissa + 2 ∧
    (mantissa ≠ 2 ^ 52 → lowerEnd mantissa + 2 = 4 * mantissa) ∧
    (mantissa = 2 ^ 52 → lowerEnd mantissa + 1 = 2 ^ 54) := by
  have hlead : Binary64.leadingBit = 2 ^ 52 := rfl
  unfold lowerEnd
  split <;> omega

/-- What lies in the neighbourhood of a number is rounded to it. -/
theorem ofQuotient_of_contains {num den : Nat} (hden : 0 < den) (hm : mantissa ≠ 0)
    (hfits : Fits mantissa exponent)
    (h : (Neighbourhood.around mantissa exponent).Contains (num / den)) (negative : Bool) :
    Binary64.ofQuotient negative num den = Binary64.compose negative mantissa exponent := by
  obtain ⟨hlow, hhigh, heven⟩ := h.bounds
  obtain ⟨hlt, hleast, -, hfilled⟩ := hfits
  have hplace : ∀ j : Int, (num / den / 2 ^ (exponent - 2 + j) : ℚ) =
      num / den / 2 ^ (exponent - 2) / 2 ^ j :=
    fun j => by rw [zpow_add₀ two_ne_zero, ← div_div]
  have hwhole := hplace 2
  have hhalf := hplace 1
  rw [show exponent - 2 + 2 = exponent by omega, show (2 : ℚ) ^ (2 : ℤ) = 4 by norm_num] at hwhole
  rw [show exponent - 2 + 1 = exponent - 1 by omega, zpow_one] at hhalf
  generalize (num / den / 2 ^ (exponent - 2) : ℚ) = w at *
  obtain ⟨hpos, hlower, hregular, hdense⟩ := lowerEnd_spec hm
  have hpos' : (0 : ℚ) < lowerEnd mantissa := by exact_mod_cast hpos
  have hlower' : (4 * mantissa : ℚ) ≤ lowerEnd mantissa + 2 := by exact_mod_cast hlower
  have hlt' : (mantissa + 1 : ℚ) ≤ 2 ^ 53 := by exact_mod_cast hlt
  push_cast at hhigh heven
  by_cases hbinade : exponent = leastExponent ∨ 2 ^ 54 ≤ w
  · refine Binary64.ofQuotient_eq hden hwhole (by linarith) hleast (by linarith)
      (hbinade.imp_right fun h => by linarith) (by linarith) (by linarith)
      (heven.imp_right fun ⟨h, h'⟩ => ⟨by linarith, by linarith⟩) negative
  · -- the number is a power of two, and the quotient is rounded below it, in smaller places
    rw [not_or, not_le] at hbinade
    obtain ⟨hne, hbelow⟩ := hbinade
    have hm : mantissa = 2 ^ 52 := by
      by_contra hother
      have hregular' : (lowerEnd mantissa + 2 : ℚ) = 4 * mantissa := by exact_mod_cast hregular hother
      have hge : (2 ^ 52 + 1 : ℚ) ≤ mantissa := by
        have : 2 ^ 52 + 1 ≤ mantissa := by omega
        exact_mod_cast this
      linarith
    have hdense' : (lowerEnd mantissa + 1 : ℚ) = 2 ^ 54 := by exact_mod_cast hdense hm
    rw [hm, ← Binary64.compose_carry negative (by omega)]
    refine Binary64.ofQuotient_eq hden hhalf (by linarith) (by omega) (by linarith) (.inr (by linarith))
      ?_ ?_ (.inl (by decide)) negative
    · push_cast
      linarith
    · push_cast
      linarith

end Neighbourhoods

end HandlerScript.Decimal
