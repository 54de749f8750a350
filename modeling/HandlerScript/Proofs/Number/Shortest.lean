import HandlerScript.Proofs.Number.Rounding

/-! The shortest decimal of a number.

    The grids are tried from one digit on, up to seventeen. A whole number of units is picked only if it
    lies in the neighbourhood of the number. On the last grid something is always picked: the number is at
    least `10 ^ 16` units there, so its neighbourhood reaches over half a unit on either side and holds the
    nearer of the two neighbours on the grid. This needs the order of the number not to be too large, and
    the estimate of the order from the binary logarithm is good enough for that. -/

namespace HandlerScript.Decimal

open Binary64 (Fits leastExponent)

/-! ### The grid -/

section Grid

variable {i : Neighbourhood} {e : Int} {n : Nat}

theorem Neighbourhood.inUnits_den_pos (h : 0 < i.den) (e : Int) : 0 < (i.inUnits e).den :=
  Nat.mul_pos h (Nat.pow_pos (by decide))

/-- Measured in units, a rational is divided by the unit. -/
theorem inUnits_quotient (a den : Nat) (e : Int) :
    ((a * Nat.pow 10 (-e).toNat : ℕ) / (den * Nat.pow 10 e.toNat : ℕ) : ℚ) = a / den / 10 ^ e := by
  simp only [Nat.pow_eq, Nat.cast_mul, Nat.cast_pow, Nat.cast_ofNat]
  rcases Int.le_total 0 e with h | h
  · lift e to ℕ using h
    rw [show (-(e : Int)).toNat = 0 by omega, Int.toNat_natCast, zpow_natCast, pow_zero, mul_one, div_div]
  · obtain ⟨k, rfl⟩ : ∃ k : Nat, e = -k := ⟨(-e).toNat, by omega⟩
    rw [show (-(k : Int)).toNat = 0 by omega, Int.neg_neg, Int.toNat_natCast, zpow_neg, zpow_natCast,
      pow_zero, mul_one, div_inv_eq_mul, div_mul_eq_mul_div]

theorem Neighbourhood.holds_iff (h : 0 < i.den) : i.holds n = true ↔ i.Contains n := by
  have hden : (0 : ℚ) < i.den := by exact_mod_cast h
  rw [Contains, div_le_iff₀ hden, le_div_iff₀ hden, div_lt_iff₀ hden, lt_div_iff₀ hden, holds]
  norm_cast
  split <;> simp

/-- A whole number of units reads back if it lies in the neighbourhood. -/
theorem Neighbourhood.holds_inUnits (h : 0 < i.den) :
    (i.inUnits e).holds n = true ↔ i.Contains (n * 10 ^ e) := by
  have hunit : (0 : ℚ) < 10 ^ e := zpow_pos (by norm_num) e
  rw [holds_iff (inUnits_den_pos h e), Contains, Contains]
  simp only [inUnits, inUnits_quotient, div_le_iff₀ hunit, le_div_iff₀ hunit, div_lt_iff₀ hunit,
    lt_div_iff₀ hunit]

theorem Neighbourhood.number_lt_iff (h : 0 < i.den) (e : Int) :
    (i.inUnits e).number < (i.inUnits e).den ↔ (i.number / i.den : ℚ) < 10 ^ e := by
  have hden : (0 : ℚ) < (i.inUnits e).den := by exact_mod_cast inUnits_den_pos h e
  have hunit : (0 : ℚ) < 10 ^ e := zpow_pos (by norm_num) e
  have hquotient : ((i.inUnits e).number / (i.inUnits e).den : ℚ) = i.number / i.den / 10 ^ e :=
    inUnits_quotient i.number i.den e
  rw [← div_lt_one hunit, ← hquotient, div_lt_one hden, Nat.cast_lt]

/-- What is picked reads back. -/
theorem Neighbourhood.holds_of_pick? {tie : Tie} (h : i.pick? tie = some n) : i.holds n = true := by
  unfold pick? at h
  dsimp only at h
  split at h <;> grind

/-- Something is picked if one of the two neighbours reads back. -/
theorem Neighbourhood.pick?_isSome {tie : Tie}
    (h : i.holds (i.number / i.den) = true ∨ i.holds (i.number / i.den + 1) = true) :
    (i.pick? tie).isSome = true := by
  unfold pick?
  dsimp only
  split <;> grind

end Grid

/-! ### The order of a number -/

section Order

variable {i : Neighbourhood} {mantissa : Nat} {exponent : Int}

/-- A power of ten against a power of two, by `10 ^ 3 ≤ 2 ^ 10` and `2 ^ 93 ≤ 10 ^ 28`. -/
theorem ten_zpow_le {a b : Int} (hpos : 10 * a ≤ 3 * b) (hneg : 93 * a ≤ 28 * b) :
    (10 : ℚ) ^ a ≤ 2 ^ b := by
  have hroot : ∀ {n : Nat}, n ≠ 0 → ((10 : ℚ) ^ a) ^ n ≤ (2 ^ b) ^ n → (10 : ℚ) ^ a ≤ 2 ^ b :=
    fun hn => (pow_le_pow_iff_left₀ (zpow_pos (by norm_num) a).le (zpow_pos two_pos b).le hn).1
  have hten : ∀ n : Nat, ((10 : ℚ) ^ a) ^ n = (10 ^ n) ^ a := fun n => by
    rw [← zpow_natCast, ← zpow_natCast, ← zpow_mul, ← zpow_mul, mul_comm]
  have htwo : ∀ (n : Nat) (c : Int), ((2 : ℚ) ^ n) ^ c = 2 ^ (n * c) := fun n c => by
    rw [← zpow_natCast, ← zpow_mul]
  have htwo' : ∀ n : Nat, ((2 : ℚ) ^ b) ^ n = 2 ^ (n * b) := fun n => by
    rw [← zpow_natCast, ← zpow_mul, mul_comm]
  rcases Int.le_total 0 a with h | h
  · refine hroot (show 3 ≠ 0 by decide) ?_
    calc ((10 : ℚ) ^ a) ^ 3 = (10 ^ 3) ^ a := hten 3
      _ ≤ (2 ^ 10) ^ a := zpow_le_zpow_left₀ h (by norm_num) (by norm_num)
      _ = 2 ^ (10 * a) := htwo 10 a
      _ ≤ 2 ^ (3 * b) := zpow_le_zpow_right₀ one_le_two hpos
      _ = (2 ^ b) ^ 3 := (htwo' 3).symm
  · refine hroot (show 28 ≠ 0 by decide) ?_
    have hinv : ∀ x : ℚ, x ^ a = (x ^ (-a))⁻¹ := fun x => by rw [zpow_neg, inv_inv]
    calc ((10 : ℚ) ^ a) ^ 28 = ((10 ^ 28) ^ (-a))⁻¹ := (hten 28).trans (hinv _)
      _ ≤ ((2 ^ 93) ^ (-a))⁻¹ := inv_anti₀ (zpow_pos (by norm_num) _)
          (zpow_le_zpow_left₀ (by omega) (by norm_num) (by norm_num))
      _ = 2 ^ (93 * a) := (hinv _).symm.trans (htwo 93 a)
      _ ≤ 2 ^ (28 * b) := zpow_le_zpow_right₀ one_le_two hneg
      _ = (2 ^ b) ^ 28 := (htwo' 28).symm

/-- The leading digit of a number stands right behind the power of ten below its order. The estimate is
    at most one too high: `0.30103` is the logarithm of two up to a fraction that does not count here. -/
theorem Neighbourhood.order_spec (hnum : 0 < i.number) (hden : 0 < i.den)
    (hleast : -1100 ≤ (i.number.log2 : Int) - i.den.log2 - 1)
    (hgreatest : (i.number.log2 : Int) - i.den.log2 - 1 ≤ 1100) :
    (10 : ℚ) ^ (i.order - 1) ≤ i.number / i.den := by
  have hlow := (Binary64.quotient_log2 hnum hden).1
  unfold order
  simp only [List.find?_cons, List.find?_nil, number_lt_iff hden]
  generalize (i.number.log2 : Int) - i.den.log2 - 1 = L at *
  have hguess : (10 : ℚ) ^ (L * 30103 / 100000 - 1 - 1) ≤ i.number / i.den :=
    (ten_zpow_le (by omega) (by omega)).trans hlow
  generalize L * 30103 / 100000 = guess at *
  have hge : ∀ {k n : Int}, n = k + 1 → ¬ (i.number / i.den : ℚ) < 10 ^ k →
      (10 : ℚ) ^ (n - 1) ≤ i.number / i.den := by
    rintro k _ rfl h
    rw [Int.add_sub_cancel]
    exact not_lt.1 h
  -- an order that is not the first one tried is above one that was too low
  by_cases h₁ : (i.number / i.den : ℚ) < 10 ^ (guess - 1)
  · rw [decide_eq_true h₁]
    exact hguess
  · rw [decide_eq_false h₁]
    by_cases h₂ : (i.number / i.den : ℚ) < 10 ^ guess
    · rw [decide_eq_true h₂]
      exact hge (show guess = _ by omega) h₁
    · rw [decide_eq_false h₂]
      by_cases h₃ : (i.number / i.den : ℚ) < 10 ^ (guess + 1)
      · rw [decide_eq_true h₃]
        exact hge (show guess + 1 = _ by omega) h₂
      · rw [decide_eq_false h₃]
        by_cases h₄ : (i.number / i.den : ℚ) < 10 ^ (guess + 2)
        · rw [decide_eq_true h₄]
          exact hge (show guess + 2 = _ by omega) h₃
        · rw [decide_eq_false h₄]
          exact hge (show guess + 3 = _ by omega) h₄

/-- A power of two against a power of ten, the other way round. -/
theorem two_zpow_le {a b : Int} (hpos : 3 * b ≤ 10 * a) (hneg : 28 * b ≤ 93 * a) :
    (2 : ℚ) ^ b ≤ 10 ^ a := by
  have h := ten_zpow_le (a := -a) (b := -b) (by omega) (by omega)
  rwa [zpow_neg, zpow_neg, inv_le_inv₀ (zpow_pos (by norm_num) a) (zpow_pos two_pos b)] at h

/-- A number is below its order. The estimate is at most three too low. -/
theorem Neighbourhood.lt_order (hnum : 0 < i.number) (hden : 0 < i.den)
    (hleast : -1100 ≤ (i.number.log2 : Int) - i.den.log2 - 1)
    (hgreatest : (i.number.log2 : Int) - i.den.log2 - 1 ≤ 1100) :
    (i.number / i.den : ℚ) < 10 ^ i.order := by
  have hhigh := (Binary64.quotient_log2 hnum hden).2
  unfold order
  simp only [number_lt_iff hden]
  generalize hguess : ((i.number.log2 : Int) - i.den.log2 - 1) * 30103 / 100000 = guess
  split
  · rename_i k hfound
    simpa using List.find?_some hfound
  · exact hhigh.trans_le (two_zpow_le (by omega) (by omega))

theorem Neighbourhood.around_value (mantissa : Nat) (exponent : Int) :
    ((around mantissa exponent).number / (around mantissa exponent).den : ℚ) = mantissa * 2 ^ exponent := by
  have h := around_quotient mantissa exponent (4 * mantissa)
  rw [zpow_sub₀ two_ne_zero] at h
  refine h.trans ?_
  push_cast
  ring

theorem Neighbourhood.around_den_pos (mantissa : Nat) (exponent : Int) :
    0 < (around mantissa exponent).den := by
  simp only [around, Nat.shiftLeft_eq]
  positivity

theorem Neighbourhood.around_number_pos (hm : mantissa ≠ 0) (exponent : Int) :
    0 < (around mantissa exponent).number := by
  simp only [around, Nat.shiftLeft_eq]
  positivity

/-- The binary logarithms of what fits. -/
theorem Neighbourhood.around_log2 (hm : mantissa ≠ 0) (hfits : Fits mantissa exponent) :
    -1100 ≤ ((around mantissa exponent).number.log2 : Int) - (around mantissa exponent).den.log2 - 1 ∧
      ((around mantissa exponent).number.log2 : Int) - (around mantissa exponent).den.log2 - 1 ≤ 1100 := by
  obtain ⟨hlow, hhigh⟩ := Binary64.quotient_log2 (around_number_pos hm exponent)
    (around_den_pos mantissa exponent)
  rw [around_value] at hlow hhigh
  have hunit : (0 : ℚ) < 2 ^ exponent := zpow_pos two_pos _
  have hbelow : (mantissa * 2 ^ exponent : ℚ) < 2 ^ (53 + exponent) := by
    rw [zpow_add₀ two_ne_zero]
    exact mul_lt_mul_of_pos_right (by exact_mod_cast hfits.mantissa_lt) hunit
  have habove : (2 : ℚ) ^ exponent ≤ mantissa * 2 ^ exponent :=
    le_mul_of_one_le_left hunit.le (by exact_mod_cast Nat.one_le_iff_ne_zero.2 hm)
  have hlt : ∀ {a b : Int}, (2 : ℚ) ^ a < 2 ^ b → a < b := (zpow_lt_zpow_iff_right₀ one_lt_two).1
  have hleast := hlt (habove.trans_lt hhigh)
  have hgreatest := hlt (hlow.trans_lt hbelow)
  have hexponent := hfits.exponent_le
  have hexponent' : -1074 ≤ exponent := hfits.least_le
  constructor <;> omega

/-- What fits has an order. -/
theorem order_around (hm : mantissa ≠ 0) (hfits : Fits mantissa exponent) :
    (10 : ℚ) ^ ((Neighbourhood.around mantissa exponent).order - 1) ≤ mantissa * 2 ^ exponent ∧
      (mantissa * 2 ^ exponent : ℚ) < 10 ^ (Neighbourhood.around mantissa exponent).order := by
  have hnum := Neighbourhood.around_number_pos hm exponent
  have hden := Neighbourhood.around_den_pos mantissa exponent
  obtain ⟨hleast, hgreatest⟩ := Neighbourhood.around_log2 hm hfits
  rw [← Neighbourhood.around_value mantissa exponent]
  exact ⟨Neighbourhood.order_spec hnum hden hleast hgreatest,
    Neighbourhood.lt_order hnum hden hleast hgreatest⟩

end Order

/-! ### The shortest decimal -/

section Shortest

variable {mantissa : Nat} {exponent : Int}

/-- The rational that a decimal stands for. -/
def Scientific.toRat (d : Scientific) : ℚ := d.value * 10 ^ d.exponent

theorem Scientific.toRat_strip (fuel : Nat) (d : Scientific) : (d.strip fuel).toRat = d.toRat := by
  induction fuel generalizing d with
  | zero => rfl
  | succ fuel ih =>
    rw [strip]
    split
    · rename_i hzeros
      rw [Bool.and_eq_true, decide_eq_true_eq] at hzeros
      have hvalue : (d.value : ℚ) = (d.value / 10 : ℕ) * 10 := by
        exact_mod_cast (Nat.div_mul_cancel (Nat.dvd_of_mod_eq_zero hzeros.1)).symm
      rw [ih, toRat, toRat, hvalue, zpow_add_one₀ (by norm_num)]
      ring
    · rfl

/-- What is closer than half a unit to a number reads back if the number has seventeen digits or more
    in that unit: the neighbourhood then reaches over half a unit on either side. -/
theorem contains_of_close (hm : mantissa ≠ 0) (hlt : mantissa < 2 ^ 53) {unit q : ℚ}
    (hunit : 10 ^ 16 * unit ≤ mantissa * 2 ^ exponent) (hlow : mantissa * 2 ^ exponent - unit / 2 ≤ q)
    (hhigh : q ≤ mantissa * 2 ^ exponent + unit / 2) :
    (Neighbourhood.around mantissa exponent).Contains q := by
  have hquarter : (0 : ℚ) < 2 ^ (exponent - 2) := zpow_pos two_pos _
  have hplace : (2 : ℚ) ^ exponent = 4 * 2 ^ (exponent - 2) := by
    rw [zpow_sub₀ two_ne_zero]
    ring
  rw [hplace] at hunit hlow hhigh
  rw [Neighbourhood.contains_around_iff]
  generalize (2 : ℚ) ^ (exponent - 2) = u at *
  have hsmall : (mantissa * u : ℚ) < 2 ^ 53 * u :=
    mul_lt_mul_of_pos_right (by exact_mod_cast hlt) hquarter
  have hinside : (lowerEnd mantissa : ℚ) < q / u ∧ q / u < (4 * mantissa + 2 : ℕ) := by
    rw [lt_div_iff₀ hquarter, div_lt_iff₀ hquarter]
    push_cast
    constructor
    · obtain ⟨-, -, hregular, hdense⟩ := lowerEnd_spec hm
      by_cases hpower : mantissa = 2 ^ 52
      · have hdense' : (lowerEnd mantissa : ℚ) = 2 ^ 54 - 1 := by
          rw [eq_sub_iff_add_eq]
          exact_mod_cast hdense hpower
        have hpower' : (mantissa : ℚ) = 2 ^ 52 := by exact_mod_cast hpower
        rw [hdense']
        rw [hpower'] at hunit hlow
        linarith
      · have hregular' : (lowerEnd mantissa : ℚ) = 4 * mantissa - 2 := by
          rw [eq_sub_iff_add_eq]
          exact_mod_cast hregular hpower
        rw [hregular']
        linarith
    · linarith
  split
  · exact ⟨hinside.1.le, hinside.2.le⟩
  · exact hinside

/-- On a grid of seventeen digits one of the two neighbours of a number reads back. -/
theorem Neighbourhood.holds_neighbour (hm : mantissa ≠ 0) (hlt : mantissa < 2 ^ 53) {e : Int}
    (he : (10 : ℚ) ^ (e + 16) ≤ mantissa * 2 ^ exponent) :
    let i := (around mantissa exponent).inUnits e
    i.holds (i.number / i.den) = true ∨ i.holds (i.number / i.den + 1) = true := by
  have hden := around_den_pos mantissa exponent
  have hunit : (0 : ℚ) < 10 ^ e := zpow_pos (by norm_num) e
  intro i
  have hquotient : (i.number / i.den : ℚ) = mantissa * 2 ^ exponent / 10 ^ e :=
    (inUnits_quotient _ _ e).trans (congrArg (· / (10 : ℚ) ^ e) (around_value mantissa exponent))
  rw [zpow_add₀ (by norm_num), mul_comm] at he
  rw [holds_inUnits hden, holds_inUnits hden]
  have hden' : (0 : ℚ) < i.den := by exact_mod_cast inUnits_den_pos hden e
  have hfloor : ((i.number / i.den : ℕ) : ℚ) * 10 ^ e ≤ mantissa * 2 ^ exponent := by
    rw [← le_div_iff₀ hunit, ← hquotient, le_div_iff₀ hden']
    exact_mod_cast Nat.div_mul_le_self i.number i.den
  have hceiling : (mantissa * 2 ^ exponent : ℚ) < ((i.number / i.den : ℕ) + 1) * 10 ^ e := by
    rw [← div_lt_iff₀ hunit, ← hquotient, div_lt_iff₀ hden']
    exact_mod_cast Nat.lt_mul_of_div_lt (Nat.lt_succ_self _) (inUnits_den_pos hden e)
  rw [add_one_mul] at hceiling
  push_cast
  rw [add_one_mul]
  generalize ((i.number / i.den : ℕ) : ℚ) * 10 ^ e = below at *
  by_cases hclose : (mantissa * 2 ^ exponent : ℚ) - 10 ^ e / 2 ≤ below
  · exact .inl (contains_of_close hm hlt he hclose (by linarith))
  · exact .inr (contains_of_close hm hlt he (by linarith) (by linarith))

/-- The shortest decimal of a number reads back as the number. -/
theorem contains_shortest (tie : Tie) (hm : mantissa ≠ 0) (hfits : Fits mantissa exponent) :
    (Neighbourhood.around mantissa exponent).Contains (shortest tie mantissa exponent).toRat := by
  have hden := Neighbourhood.around_den_pos mantissa exponent
  unfold shortest
  dsimp only
  split
  · rename_i d hfound
    obtain ⟨n, -, hpicked⟩ := List.exists_of_findSome?_eq_some hfound
    obtain ⟨v, hv, rfl⟩ := Option.map_eq_some_iff.1 hpicked
    rw [Scientific.toRat_strip]
    exact (Neighbourhood.holds_inUnits hden).1 (Neighbourhood.holds_of_pick? hv)
  · rename_i hnone
    have hlast := List.findSome?_eq_none_iff.1 hnone 16 (List.mem_range.2 (by decide))
    have horder := (order_around hm hfits).1
    generalize (Neighbourhood.around mantissa exponent).order = k at hlast horder
    have hgrid : (10 : ℚ) ^ (k - 1 - (16 : ℕ) + 16) ≤ mantissa * 2 ^ exponent := by
      rwa [Nat.cast_ofNat, Int.sub_add_cancel]
    have hpicked : (((Neighbourhood.around mantissa exponent).inUnits _).pick? tie).isSome = true :=
      Neighbourhood.pick?_isSome (Neighbourhood.holds_neighbour hm hfits.mantissa_lt hgrid)
    rw [Option.map_eq_none_iff.1 hlast] at hpicked
    cases hpicked

/-- What is picked is at most one unit above the number. -/
theorem Neighbourhood.le_of_pick? {tie : Tie} {i : Neighbourhood} {n : Nat} (h : i.pick? tie = some n) :
    n ≤ i.number / i.den + 1 := by
  unfold pick? at h
  dsimp only at h
  split at h <;> grind

theorem Scientific.value_strip_le (fuel : Nat) (d : Scientific) : (d.strip fuel).value ≤ d.value := by
  induction fuel generalizing d with
  | zero => exact Nat.le_refl _
  | succ fuel ih =>
    rw [strip]
    split
    · exact (ih _).trans (Nat.div_le_self _ _)
    · exact Nat.le_refl _

/-- The shortest decimal of a number has no more than seventeen digits, or is a power of ten. -/
theorem value_shortest_le (tie : Tie) (hm : mantissa ≠ 0) (hfits : Fits mantissa exponent) :
    (shortest tie mantissa exponent).value ≤ 10 ^ 17 := by
  have hden := Neighbourhood.around_den_pos mantissa exponent
  unfold shortest
  dsimp only
  split
  · rename_i d hfound
    obtain ⟨n, hn, hpicked⟩ := List.exists_of_findSome?_eq_some hfound
    obtain ⟨v, hv, rfl⟩ := Option.map_eq_some_iff.1 hpicked
    refine (Scientific.value_strip_le 20 _).trans ((Neighbourhood.le_of_pick? hv).trans ?_)
    have horder := (order_around hm hfits).2
    rw [← Neighbourhood.around_value] at horder
    generalize (Neighbourhood.around mantissa exponent).order = k at horder ⊢
    have hquotient : (((Neighbourhood.around mantissa exponent).inUnits (k - 1 - n)).number /
        ((Neighbourhood.around mantissa exponent).inUnits (k - 1 - n)).den : ℚ) = _ :=
      inUnits_quotient _ _ (k - 1 - n)
    have hden' : (0 : ℚ) < ((Neighbourhood.around mantissa exponent).inUnits (k - 1 - n)).den := by
      exact_mod_cast Neighbourhood.inUnits_den_pos hden (k - 1 - n)
    generalize (Neighbourhood.around mantissa exponent).inUnits (k - 1 - n) = i at hquotient hden' ⊢
    have hn' : n < 17 := List.mem_range.1 hn
    have hdigits : (i.number / i.den : ℚ) < 10 ^ 17 := by
      rw [hquotient, div_lt_iff₀ (zpow_pos (by norm_num) _), ← zpow_natCast, ← zpow_add₀ (by norm_num)]
      exact horder.trans_le (zpow_le_zpow_right₀ (by norm_num) (by omega))
    rw [div_lt_iff₀ hden'] at hdigits
    exact Nat.succ_le_of_lt (Nat.div_lt_of_lt_mul (by rw [mul_comm]; exact_mod_cast hdigits))
  · exact hfits.mantissa_lt.le.trans (by decide)

end Shortest

end HandlerScript.Decimal
