import HandlerScript.Json.Token
import HandlerScript.Proofs.Number.Arithmetic
import HandlerScript.Proofs.Number.Shortest
import HandlerScript.Proofs.Number.Zero

/-! Decimals of JSON, computed in steps.

    The digits of a decimal are rounded to a number, the power of ten is rounded to a number, and their
    product or quotient is rounded again. So what is read is determined by three roundings, or five where
    the power is too small to be reached at once, and it need not be the number nearest to the decimal.
    It is one if the digits and the power are numbers themselves. A decimal that is close enough to a
    finite number never exceeds all numbers on the way: rounding keeps the order, so it is enough to look
    at the greatest digits for each power of ten. -/

namespace HandlerScript.Json

open Binary64 (RoundsTo Denotes Fits isNearest_self denotes_ofQuotient)

/-- What a decimal comes to when it is computed in steps. -/
inductive Stepwise (s : Nat) : Int → ℚ → Prop
  | product {e : Nat} {a b r : ℚ} (digits : RoundsTo s a) (power : RoundsTo (10 ^ e) b)
      (result : RoundsTo (a * b) r) : Stepwise s e r
  | quotient {e : Nat} {a b r : ℚ} (pos : 0 < e) (near : e ≤ 308) (digits : RoundsTo s a)
      (power : RoundsTo (10 ^ e) b) (result : RoundsTo (a / b) r) : Stepwise s (-e) r
  | quotients {e : Nat} {a b c d r : ℚ} (pos : 0 < e) (digits : RoundsTo s a) (first : RoundsTo (10 ^ 308) b)
      (between : RoundsTo (a / b) c) (second : RoundsTo (10 ^ e) d) (result : RoundsTo (c / d) r) :
      Stepwise s (-(308 + e)) r

/-! ### The numbers on the way -/

section Numbers

variable {q r : ℚ} {s e : Nat}

theorem exists_roundsTo (hq : 0 < q) : ∃ r, RoundsTo q r := by
  obtain ⟨k, e, h⟩ := Binary64.exists_isNearest hq
  exact ⟨_, k, e, h, rfl⟩

theorem roundsTo_self {mantissa : Nat} {exponent : Int} (h : Fits mantissa exponent) :
    RoundsTo (mantissa * 2 ^ exponent) (mantissa * 2 ^ exponent) :=
  ⟨mantissa, exponent, isNearest_self h, rfl⟩

/-- What is between two numbers is rounded to something between them. -/
theorem le_of_roundsTo {m : Nat} {f : Int} (h : RoundsTo q r) (hfits : Fits m f)
    (hle : (m * 2 ^ f : ℚ) ≤ q) : (m * 2 ^ f : ℚ) ≤ r :=
  (roundsTo_self hfits).mono h hle

theorem roundsTo_le {m : Nat} {f : Int} (h : RoundsTo q r) (hfits : Fits m f)
    (hle : q ≤ (m * 2 ^ f : ℚ)) : r ≤ m * 2 ^ f :=
  h.mono (roundsTo_self hfits) hle

theorem fits_one : Fits (2 ^ 52) (-52) := ⟨by decide, by decide, by decide, .inl le_rfl⟩

/-- The greatest number. -/
theorem fits_greatest : Fits (2 ^ 53 - 1) 971 := ⟨by decide, by decide, by decide, .inl (by decide)⟩

theorem fits_least : Fits 1 (-1074) := ⟨by decide, by decide, by decide, .inr rfl⟩

theorem one_le_of_roundsTo (h : RoundsTo q r) (hq : 1 ≤ q) : 1 ≤ r := by
  have hle := le_of_roundsTo h fits_one (by norm_num; exact hq)
  norm_num at hle
  exact hle

theorem lt_of_roundsTo (h : RoundsTo q r) (hq : q ≤ 10 ^ 308) : r < 2 ^ 1024 := by
  have hpower : 10 ^ 308 ≤ (2 ^ 53 - 1) * 2 ^ 971 := by decide +kernel
  have hgreatest : (2 ^ 53 - 1) * 2 ^ 971 < 2 ^ 1024 := by decide +kernel
  have hpower' : (10 ^ 308 : ℚ) ≤ (2 ^ 53 - 1 : ℕ) * 2 ^ (971 : ℤ) := by exact_mod_cast hpower
  have hgreatest' : ((2 ^ 53 - 1 : ℕ) * 2 ^ (971 : ℤ) : ℚ) < 2 ^ 1024 := by exact_mod_cast hgreatest
  exact (roundsTo_le h fits_greatest (hq.trans hpower')).trans_lt hgreatest'

/-- The digits of a decimal as a number. -/
theorem exists_denotes_digits (hs : 0 < s) (hs' : s ≤ 10 ^ 17) : ∃ a, RoundsTo s a ∧ 1 ≤ a ∧
    a < 2 ^ 1024 ∧ Denotes (Binary64.ofQuotient false s 1) a := by
  have hpos : (0 : ℚ) < s := by exact_mod_cast hs
  obtain ⟨a, ha⟩ := exists_roundsTo hpos
  have hs'' : (s : ℚ) ≤ 10 ^ 17 := by exact_mod_cast hs'
  have hlt := lt_of_roundsTo ha (hs''.trans (pow_le_pow_right₀ (by norm_num) (by decide)))
  exact ⟨a, ha, one_le_of_roundsTo ha (by exact_mod_cast hs), hlt,
    denotes_ofQuotient one_pos (by simp) hpos ha hlt⟩

/-- A power of ten as a number. -/
theorem exists_denotes_power (he : e ≤ 308) : ∃ b, RoundsTo (10 ^ e) b ∧ 1 ≤ b ∧ b < 2 ^ 1024 ∧
    Denotes (Decimal.nearest false 1 e) b := by
  have hpos : (0 : ℚ) < 10 ^ e := pow_pos (by norm_num) e
  obtain ⟨b, hb⟩ := exists_roundsTo hpos
  have hlt := lt_of_roundsTo hb (pow_le_pow_right₀ (by norm_num) he)
  refine ⟨b, hb, one_le_of_roundsTo hb (one_le_pow₀ (by norm_num)), hlt, ?_⟩
  have hnearest : Decimal.nearest false 1 e = Binary64.ofQuotient false (1 * Nat.pow 10 e) 1 := by
    rw [Decimal.nearest, if_neg one_ne_zero, if_neg (by omega), if_neg (by omega),
      show (-(e : Int)).toNat = 0 by omega]
    rfl
  rw [hnearest]
  exact denotes_ofQuotient one_pos (by simp) hpos hb hlt

end Numbers

/-! ### Products and quotients -/

section Steps

variable {s e : Nat}

/-- A division by a power of ten makes no number too great. -/
theorem exists_denotes_div {x p : Float} {a b : ℚ} (hx : Denotes x a) (hp : Denotes p b) (ha : 0 < a)
    (hb : 1 ≤ b) (hlt : a < 2 ^ 1024) : ∃ r, RoundsTo (a / b) r ∧ r < 2 ^ 1024 ∧ Denotes (x / p) r := by
  have hb' : 0 < b := one_pos.trans_le hb
  obtain ⟨r, hr⟩ := exists_roundsTo (div_pos ha hb')
  have hle : r ≤ a := hr.mono hx.roundsTo (div_le_self ha.le hb)
  exact ⟨r, hr, hle.trans_lt hlt, hx.div hp ha hb' hr (hle.trans_lt hlt)⟩

/-- A power of ten that is not too small is reached by one multiplication. -/
theorem powerOfTen?_product (hs : 0 < s) (hs' : s ≤ 10 ^ 17) (he : e ≤ 308)
    (hfinite : ∀ {a b r : ℚ}, RoundsTo s a → RoundsTo (10 ^ e) b → RoundsTo (a * b) r → r < 2 ^ 1024)
    (fuel : Nat) : ∃ x r, powerOfTen? (fuel + 1) (Binary64.ofQuotient false s 1) e = some x ∧
      Denotes x r ∧ Stepwise s e r := by
  obtain ⟨a, ha, hone, -, hdigits⟩ := exists_denotes_digits hs hs'
  obtain ⟨b, hb, hone', -, hpower⟩ := exists_denotes_power he
  have hpos : 0 < a := one_pos.trans_le hone
  have hpos' : 0 < b := one_pos.trans_le hone'
  obtain ⟨r, hr⟩ := exists_roundsTo (mul_pos hpos hpos')
  have hproduct := hdigits.mul hpower hpos hpos' hr (hfinite ha hb hr)
  refine ⟨_, r, ?_, hproduct, .product ha hb hr⟩
  rw [powerOfTen?, if_pos (by rwa [Int.natAbs_natCast])]
  dsimp only
  rw [if_pos (Int.natCast_nonneg e), Int.natAbs_natCast, if_pos (Binary64.isFinite_of_denotes hproduct)]

theorem powerOfTen?_quotient (hs : 0 < s) (hs' : s ≤ 10 ^ 17) (hpos : 0 < e) (he : e ≤ 308) (fuel : Nat) :
    ∃ x r, powerOfTen? (fuel + 1) (Binary64.ofQuotient false s 1) (-e) = some x ∧
      Denotes x r ∧ Stepwise s (-e) r := by
  obtain ⟨a, ha, hone, hlt, hdigits⟩ := exists_denotes_digits hs hs'
  obtain ⟨b, hb, hone', -, hpower⟩ := exists_denotes_power he
  obtain ⟨r, hr, -, hquotient⟩ := exists_denotes_div hdigits hpower (one_pos.trans_le hone) hone' hlt
  refine ⟨_, r, ?_, hquotient, .quotient hpos he ha hb hr⟩
  rw [powerOfTen?, if_pos (by omega)]
  dsimp only
  rw [if_neg (by omega), Int.natAbs_neg, Int.natAbs_natCast]

theorem beq_zero_of_denotes {x : Float} {q : ℚ} (h : Denotes x q) (hq : 0 < q) : (x == 0.0) = false := by
  rw [Bool.eq_false_iff, Ne, Binary64.beq_zero_iff]
  rintro ⟨negative, exponent, hzero⟩
  obtain ⟨mantissa, exponent', hparts, rfl⟩ := h
  obtain ⟨-, rfl, -⟩ := Binary64.Parts.finite.inj (hparts.symm.trans hzero)
  rw [Nat.cast_zero, zero_mul] at hq
  exact lt_irrefl 0 hq

/-- A quotient of numbers from one up is not so small that it is rounded to zero. -/
theorem pos_of_roundsTo_div {a b c : ℚ} (ha : 1 ≤ a) (hb : 1 ≤ b) (hlt : b < 2 ^ 1024)
    (h : RoundsTo (a / b) c) : 0 < c := by
  have hleast : ((1 : ℕ) * 2 ^ (-1074 : ℤ) : ℚ) ≤ a / b := by
    rw [Nat.cast_one, one_mul, le_div_iff₀ (one_pos.trans_le hb), zpow_neg]
    have hplace : (2 : ℚ) ^ 1024 ≤ 2 ^ (1074 : ℤ) := by
      rw [← zpow_natCast]
      exact zpow_le_zpow_right₀ one_le_two (by decide)
    calc ((2 : ℚ) ^ (1074 : ℤ))⁻¹ * b ≤ (2 ^ (1074 : ℤ))⁻¹ * 2 ^ (1074 : ℤ) :=
          mul_le_mul_of_nonneg_left (hlt.le.trans hplace) (inv_nonneg.2 (zpow_pos two_pos _).le)
      _ = 1 := inv_mul_cancel₀ (zpow_pos two_pos _).ne'
      _ ≤ a := ha
  refine lt_of_lt_of_le ?_ (le_of_roundsTo h fits_least hleast)
  rw [Nat.cast_one, one_mul]
  exact zpow_pos two_pos _

/-- A smaller power is reached by two divisions. -/
theorem powerOfTen?_quotients (hs : 0 < s) (hs' : s ≤ 10 ^ 17) (hpos : 0 < e) (he : e ≤ 308) (fuel : Nat) :
    ∃ x r, powerOfTen? (fuel + 2) (Binary64.ofQuotient false s 1) (-(308 + e)) = some x ∧
      Denotes x r ∧ Stepwise s (-(308 + e)) r := by
  obtain ⟨a, ha, hone, hlt, hdigits⟩ := exists_denotes_digits hs hs'
  obtain ⟨b, hb, hone', hlt', hfirst⟩ := exists_denotes_power le_rfl
  obtain ⟨d, hd, hone'', -, hsecond⟩ := exists_denotes_power he
  have hpos' : 0 < a := one_pos.trans_le hone
  obtain ⟨c, hc, hsmall, hbetween⟩ := exists_denotes_div hdigits hfirst hpos' hone' hlt
  have hcpos := pos_of_roundsTo_div hone hone' hlt' hc
  obtain ⟨r, hr, -, hquotient⟩ := exists_denotes_div hbetween hsecond hcpos hone'' hsmall
  refine ⟨_, r, ?_, hquotient, .quotients hpos ha hb hc hd hr⟩
  have hnonzero : ¬ (Binary64.ofQuotient false s 1 == 0.0) = true := by
    rw [beq_zero_of_denotes hdigits hpos']
    exact Bool.false_ne_true
  have hstep : (-(308 + e) + 308 : ℤ) = -e := by omega
  rw [powerOfTen?, if_neg (by omega), if_neg hnonzero, if_neg (by omega), hstep, powerOfTen?,
    if_pos (by omega)]
  dsimp only
  rw [if_neg (by omega), Int.natAbs_neg, Int.natAbs_natCast]
  rfl

end Steps

/-! ### Products that stay finite -/

section Finite

variable {s e : Nat}

/-- The shortest decimal of the greatest number. -/
def greatest : Nat := 17976931348623157 * 10 ^ 292

/-- The greatest digits in front of a power of ten. -/
def greatestDigits (e : Nat) : Nat := min (10 ^ 17) (greatest / 10 ^ e)

theorem le_greatestDigits (hs : s ≤ 10 ^ 17) (h : s * 10 ^ e ≤ greatest) : s ≤ greatestDigits (max e 291) := by
  rcases Nat.le_total e 291 with hle | hge
  · have hall : greatestDigits 291 = 10 ^ 17 := by decide +kernel
    rwa [Nat.max_eq_right hle, hall]
  · rw [Nat.max_eq_left hge]
    exact le_min hs ((Nat.le_div_iff_mul_le (Nat.pow_pos (by decide))).2 h)

/-- Even the greatest digits have a finite product with their power. -/
theorem isFinite_greatestDigits : ∀ e < 309, 291 ≤ e → 0 < greatestDigits e ∧ Binary64.isFinite
    (Binary64.ofQuotient false (greatestDigits e) 1 * Decimal.nearest false 1 e) = true := by
  decide +kernel

/-- Digits and a power of ten have a finite product, each rounded before, if they are no greater than
    what the greatest number is written as. The next greater decimal would be too great, though it is
    still closest to that number. -/
theorem lt_of_product {a b r : ℚ} (hs : s ≤ 10 ^ 17) (he : e ≤ 308) (h : s * 10 ^ e ≤ greatest)
    (ha : RoundsTo s a) (hb : RoundsTo (10 ^ e) b) (hr : RoundsTo (a * b) r) :
    r < 2 ^ 1024 := by
  obtain ⟨hgreatest, hfinite⟩ := isFinite_greatestDigits (max e 291) (by omega) (Nat.le_max_right _ _)
  obtain ⟨a', ha', hone, -, hdigits⟩ := exists_denotes_digits hgreatest (Nat.min_le_left _ _)
  obtain ⟨b', hb', hone', -, hpower⟩ := exists_denotes_power (show max e 291 ≤ 308 by omega)
  have hpos' : 0 < a' := one_pos.trans_le hone
  have hpos'' : 0 < b' := one_pos.trans_le hone'
  obtain ⟨r', hr'⟩ := exists_roundsTo (mul_pos hpos' hpos'')
  have hale : a ≤ a' := ha.mono ha' (by exact_mod_cast le_greatestDigits hs h)
  have hble : b ≤ b' := hb.mono hb' (pow_le_pow_right₀ (by norm_num) (Nat.le_max_left _ _))
  have hbpos : 0 ≤ b := zero_le_one.trans (one_le_of_roundsTo hb (one_le_pow₀ (by norm_num)))
  have hle : r ≤ r' := hr.mono hr' (mul_le_mul hale hble hbpos hpos'.le)
  exact hle.trans_lt (hdigits.lt_of_isFinite_mul hpower hpos' hpos'' hr' hfinite)

end Finite

/-! ### Decimals -/

section Decimals

variable {s : Nat} {e : Int} {r : ℚ}

/-- A decimal no greater than what the greatest number is written as is read, and comes to what it comes
    to in steps. -/
theorem exists_ofDecimal (hs : 0 < s) (hs' : s ≤ 10 ^ 17) (hlow : -616 ≤ e)
    (hhigh : (s * 10 ^ e : ℚ) ≤ greatest) : ∃ x r, Denotes x r ∧ Stepwise s e r ∧
      ∀ negative rest, ofDecimal negative s e rest = .ok (.float (if negative then -x else x), rest) := by
  have hread : ∃ x r, powerOfTen? 8 (Binary64.ofQuotient false s 1) e = some x ∧ Denotes x r ∧
      Stepwise s e r := by
    rcases Int.lt_or_le e 0 with hneg | hnonneg
    · rcases Int.lt_or_le e (-308) with hfar | hnear
      · obtain ⟨k, rfl⟩ : ∃ k : Nat, e = -(308 + k) := ⟨(-308 - e).toNat, by omega⟩
        exact powerOfTen?_quotients hs hs' (by omega) (by omega) 6
      · obtain ⟨k, rfl⟩ : ∃ k : Nat, e = -k := ⟨(-e).toNat, by omega⟩
        exact powerOfTen?_quotient hs hs' (by omega) (by omega) 7
    · lift e to ℕ using hnonneg
      have hhigh' : s * 10 ^ e ≤ greatest := by exact_mod_cast hhigh
      have he : e ≤ 308 := by
        have hpower : ∀ k ≤ e, 10 ^ k ≤ greatest := fun k hk =>
          (Nat.pow_le_pow_right (by decide) hk).trans ((Nat.le_mul_of_pos_left _ hs).trans hhigh')
        have hgreatest : ¬ 10 ^ 309 ≤ greatest := by decide +kernel
        exact Nat.le_of_not_lt fun hgreat => hgreatest (hpower 309 hgreat)
      exact powerOfTen?_product hs hs' he (lt_of_product hs' he hhigh') 7
  obtain ⟨x, r, hpower, hx, hstep⟩ := hread
  exact ⟨x, r, hx, hstep, fun negative rest => by rw [ofDecimal, hpower]⟩

/-- The steps lead to one number. -/
theorem Stepwise.unique {r' : ℚ} (h : Stepwise s e r) (h' : Stepwise s e r') : r = r' := by
  cases h with
  | @product n _ _ _ digits power result =>
    generalize hn : (n : ℤ) = e at h'
    cases h' with
    | product digits' power' result' =>
      cases Nat.cast_injective hn
      cases digits.unique digits'
      cases power.unique power'
      exact result.unique result'
    | quotient => omega
    | quotients => omega
  | @quotient n _ _ _ pos near digits power result =>
    generalize hn : -(n : ℤ) = e at h'
    cases h' with
    | product => omega
    | quotient pos' near' digits' power' result' =>
      cases Nat.cast_injective (neg_injective hn)
      cases digits.unique digits'
      cases power.unique power'
      exact result.unique result'
    | quotients => omega
  | @quotients n _ _ _ _ _ pos digits first between second result =>
    generalize hn : -(308 + n : ℤ) = e at h'
    cases h' with
    | product => omega
    | quotient => omega
    | quotients pos' digits' first' between' second' result' =>
      cases Nat.cast_injective (add_left_cancel (neg_injective hn))
      cases digits.unique digits'
      cases first.unique first'
      cases between.unique between'
      cases second.unique second'
      exact result.unique result'

/-- A natural of fifty-three bits times a power of two is a number. -/
theorem roundsTo_shifted {n j : Nat} (hn : 0 < n) (hn' : n < 2 ^ 53) (hj : j ≤ 971) :
    RoundsTo (n * 2 ^ j) (n * 2 ^ j) := by
  have hlog : n.log2 < 53 := (Nat.log2_lt hn.ne').2 hn'
  obtain ⟨k, hk⟩ : ∃ k, n.log2 + k = 52 := ⟨52 - n.log2, by omega⟩
  have hlow : 2 ^ 52 ≤ n * 2 ^ k := by
    rw [← hk, Nat.pow_add]
    exact Nat.mul_le_mul_right _ (Nat.log2_self_le hn.ne')
  have hhigh : n * 2 ^ k < 2 ^ 53 := by
    rw [show 53 = n.log2 + 1 + k by omega, Nat.pow_add]
    exact Nat.mul_lt_mul_of_pos_right Nat.lt_log2_self (Nat.pow_pos two_pos)
  have hleast : Binary64.leastExponent = -1074 := rfl
  have hfits : Fits (n * 2 ^ k) (j - k) := ⟨hhigh, by omega, by omega, .inl hlow⟩
  have hself := roundsTo_self hfits
  have hvalue : ((n * 2 ^ k : ℕ) * 2 ^ (j - k : ℤ) : ℚ) = n * 2 ^ j := by
    rw [zpow_sub₀ two_ne_zero, zpow_natCast, zpow_natCast, Nat.cast_mul, Nat.cast_pow, Nat.cast_ofNat]
    field_simp
  rwa [hvalue] at hself

theorem roundsTo_digits (hs : 0 < s) (hs' : s ≤ 2 ^ 53) : RoundsTo s s := by
  rcases hs'.lt_or_eq with hlt | rfl
  · have hself := roundsTo_shifted hs hlt (Nat.zero_le _)
    rwa [pow_zero, mul_one] at hself
  · have hself := roundsTo_shifted (n := 1) (j := 53) one_pos (by decide) (by decide)
    rw [Nat.cast_one, one_mul] at hself
    exact_mod_cast hself

/-- The powers of ten that are numbers. -/
theorem roundsTo_power {k : Nat} (hk : k ≤ 22) : RoundsTo (10 ^ k) (10 ^ k) := by
  have hfive : 5 ^ k < 2 ^ 53 := (Nat.pow_le_pow_right (by decide) hk).trans_lt (by decide)
  have hself := roundsTo_shifted (Nat.pow_pos (by decide)) hfive (hk.trans (by decide))
  have hten : ((5 ^ k : ℕ) * 2 ^ k : ℚ) = 10 ^ k := by
    rw [Nat.cast_pow, ← mul_pow]
    norm_num
  rwa [hten] at hself

/-- A decimal whose digits and power of ten are numbers is read as the number nearest to it. -/
theorem Stepwise.roundsTo (h : Stepwise s e r) (hs : 0 < s) (hs' : s ≤ 2 ^ 53) (he : e.natAbs ≤ 22) :
    RoundsTo (s * 10 ^ e) r := by
  cases h with
  | product digits power result =>
    rw [Int.natAbs_natCast] at he
    cases digits.unique (roundsTo_digits hs hs')
    cases power.unique (roundsTo_power he)
    rwa [zpow_natCast]
  | quotient pos near digits power result =>
    rw [Int.natAbs_neg, Int.natAbs_natCast] at he
    cases digits.unique (roundsTo_digits hs hs')
    cases power.unique (roundsTo_power he)
    rwa [zpow_neg, zpow_natCast, ← div_eq_mul_inv]
  | quotients => omega

end Decimals

end HandlerScript.Json
