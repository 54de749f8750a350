import HandlerScript.Proofs.Number.Rounding
import Mathlib.Algebra.Order.Floor.Semifield
import Mathlib.Data.Rat.Floor

/-! The number nearest to a rational.

    A positive rational has a last place, and the number nearest to it is a whole number of units there,
    at most half a unit away; a middle goes to the even one. A quotient is rounded to that number, unless
    it exceeds all numbers. The greater of two rationals has the greater nearest number: in one place
    because whole numbers are ordered, and in different places because a mantissa that carries makes the
    least number of the next place. -/

namespace HandlerScript.Binary64

/-- `k` units in the last place of a rational are the number nearest to it. -/
structure IsNearest (q : ℚ) (k : Nat) (e : Int) : Prop where
  least : leastExponent ≤ e
  full : q / 2 ^ e < 2 ^ 53
  filled : e = leastExponent ∨ 2 ^ 52 ≤ q / 2 ^ e
  low : (k - 1 / 2 : ℚ) ≤ q / 2 ^ e
  high : q / 2 ^ e ≤ k + 1 / 2
  even : k % 2 = 0 ∨ (k - 1 / 2 : ℚ) < q / 2 ^ e ∧ q / 2 ^ e < k + 1 / 2

/-- A rational is rounded to the number nearest to it. -/
def RoundsTo (q r : ℚ) : Prop := ∃ (k : Nat) (e : Int), IsNearest q k e ∧ (k * 2 ^ e : ℚ) = r

/-- A number without a minus sign is worth a rational. -/
def Denotes (x : Float) (q : ℚ) : Prop :=
  ∃ (mantissa : Nat) (exponent : Int), parts x = .finite false mantissa exponent ∧
    (mantissa * 2 ^ exponent : ℚ) = q

/-! ### Parts of what was put together -/

section Compose

variable {negative : Bool} {mantissa : Nat} {exponent : Int}

open Float.Model (Format) in
open Float.Model.UnpackedFloat (unpackExponent) in
/-- Bits that are no NaN are the bits of their number. -/
theorem toBits_ofBits {bits : UInt64}
    (h : bits.toNat / leadingBit % 2048 = 2047 → bits.toNat % leadingBit = 0) :
    (Float.ofBits bits).toBits = bits := by
  have hfields := toNat_unpack bits.toBitVec
  have hvalid : Format.binary64.Valid bits.toBitVec := by
    refine ⟨fun hlast hm => absurd ?_ hm⟩
    have hexponent : (@unpackExponent Format.binary64 bits.toBitVec).toNat = 2047 := by
      rw [hlast]
      rfl
    refine BitVec.eq_of_toNat_eq (hfields.2.2.trans (h (hfields.2.1.symm.trans hexponent)))
  exact UInt64.toBitVec_inj.1 (pack_unpack hvalid)

/-- A number is taken apart by its magnitude, whatever its sign is. -/
theorem parts_ofMagnitude {bits : Nat} (h : bits ≤ infinityBits) :
    parts (ofMagnitude negative bits) =
      if bits / leadingBit = 2047 then (if bits % leadingBit = 0 then .infinite negative else .nan)
      else if bits / leadingBit = 0 then .finite negative (bits % leadingBit) leastExponent
      else .finite negative (leadingBit + bits % leadingBit) ((bits / leadingBit : ℕ) - 1075) := by
  have hleading : leadingBit = 4503599627370496 := rfl
  have hinfinity : infinityBits = 2047 * 4503599627370496 := rfl
  obtain ⟨all, hall⟩ : ∃ all, (if negative then signBit + bits else bits) = all := ⟨_, rfl⟩
  have hfields : all < 2 ^ 64 ∧ all / leadingBit % 2048 = bits / leadingBit ∧
      all % leadingBit = bits % leadingBit ∧ decide (signBit ≤ all) = negative := by
    have hsign : signBit = 9223372036854775808 := rfl
    rw [hleading, hsign]
    cases negative with
    | false =>
      have hall : bits = all := hall
      exact ⟨by omega, by omega, by omega, decide_eq_false (by omega)⟩
    | true =>
      have hall : 9223372036854775808 + bits = all := hall
      exact ⟨by omega, by omega, by omega, decide_eq_true (by omega)⟩
  obtain ⟨hlt, hfield, hfraction, hnegative⟩ := hfields
  have hsize : (UInt64.ofNat all).toNat = all := by
    rw [UInt64.toNat_ofNat', Nat.mod_eq_of_lt hlt]
  have hnumber : (UInt64.ofNat all).toNat / leadingBit % 2048 = 2047 →
      (UInt64.ofNat all).toNat % leadingBit = 0 := by
    rw [hsize, hfield, hfraction, hleading]
    omega
  rw [ofMagnitude, hall, parts, toBits_ofBits hnumber, hsize, Parts.ofBits]
  simp only [hfield, hfraction, hnegative]

/-- What fits is taken apart as it was put together. -/
theorem parts_compose (h : Fits mantissa exponent) :
    parts (compose negative mantissa exponent) = .finite negative mantissa exponent := by
  obtain ⟨hlt, hleast, hgreatest, hfilled⟩ := h
  have hleading : leadingBit = 4503599627370496 := rfl
  have hinfinity : infinityBits = 2047 * 4503599627370496 := rfl
  have hplace : leastExponent = -1074 := rfl
  have hbits : min infinityBits ((exponent - leastExponent).toNat * leadingBit + mantissa) =
      (exponent - leastExponent).toNat * leadingBit + mantissa := by
    rw [hleading, hinfinity]
    omega
  rw [compose, parts_ofMagnitude (Nat.min_le_left _ _), hbits]
  rcases Nat.lt_or_ge mantissa leadingBit with hsmall | hlarge
  · have hexponent : exponent = leastExponent := hfilled.resolve_left (by omega)
    rw [hexponent, Int.sub_self, Int.toNat_zero, Nat.zero_mul, Nat.zero_add, Nat.div_eq_of_lt hsmall,
      Nat.mod_eq_of_lt hsmall, if_neg (by decide), if_pos rfl]
  · have hdiv : ((exponent - leastExponent).toNat * leadingBit + mantissa) / leadingBit =
        (exponent - leastExponent).toNat + 1 := by
      rw [hleading] at hlarge ⊢
      omega
    have hmod : leadingBit + ((exponent - leastExponent).toNat * leadingBit + mantissa) % leadingBit =
        mantissa := by
      rw [hleading] at hlarge ⊢
      omega
    rw [hdiv, hmod, if_neg (by omega), if_neg (by omega)]
    congr 1
    omega

end Compose

/-! ### Rounding -/

section Nearest

variable {q q' r r' : ℚ} {k : Nat} {e : Int}

/-- A rational that is not negative has a nearest whole number. -/
theorem exists_nearest_nat {t : ℚ} (ht : 0 ≤ t) : ∃ k : Nat, (k - 1 / 2 : ℚ) ≤ t ∧ t ≤ k + 1 / 2 ∧
    (k % 2 = 0 ∨ (k - 1 / 2 : ℚ) < t ∧ t < k + 1 / 2) := by
  have hfloor := Nat.floor_le ht
  have hceiling := Nat.lt_floor_add_one t
  generalize ⌊t⌋₊ = n at *
  rcases lt_trichotomy t (n + 1 / 2) with hlt | heq | hgt
  · exact ⟨n, by linarith, hlt.le, .inr ⟨by linarith, hlt⟩⟩
  · rcases Nat.mod_two_eq_zero_or_one n with heven | hodd
    · exact ⟨n, by linarith, heq.le, .inl heven⟩
    · refine ⟨n + 1, ?_, ?_, .inl (by omega)⟩ <;>
      · push_cast
        linarith
  · refine ⟨n + 1, ?_, ?_, .inr ⟨?_, ?_⟩⟩ <;>
    · push_cast
      linarith

/-- A positive rational is a quotient of naturals. -/
theorem natAbs_div_den (hq : 0 < q) : (q.num.natAbs / q.den : ℚ) = q := by
  have hnonneg : ((q.num.natAbs : ℤ) : ℚ) = q.num :=
    congrArg _ (Int.natAbs_of_nonneg (Rat.num_pos.2 hq).le)
  rw [← Int.cast_natCast, hnonneg, Rat.num_div_den]

theorem exists_isNearest (hq : 0 < q) : ∃ k e, IsNearest q k e := by
  have hnum : 0 < q.num.natAbs := Int.natAbs_pos.2 (Rat.num_pos.2 hq).ne'
  obtain ⟨hleast, hfull, hfilled⟩ := lastPlace_spec hnum q.den_pos
  rw [natAbs_div_den hq] at hfull hfilled
  generalize lastPlace q.num.natAbs q.den = e at *
  have hunit : (0 : ℚ) < 2 ^ e := zpow_pos two_pos e
  obtain ⟨k, hlow, hhigh, heven⟩ := exists_nearest_nat (div_nonneg hq.le hunit.le)
  rw [zpow_add₀ two_ne_zero, ← div_lt_iff₀' hunit] at hfull
  rw [zpow_add₀ two_ne_zero, ← le_div_iff₀' hunit] at hfilled
  exact ⟨k, e, hleast, by exact_mod_cast hfull, by exact_mod_cast hfilled, hlow, hhigh, heven⟩

namespace IsNearest

theorem le (h : IsNearest q k e) : k ≤ 2 ^ 53 := by
  have hlt : (k : ℚ) < 2 ^ 53 + 1 := by linarith [h.low, h.full]
  have : k < 2 ^ 53 + 1 := by exact_mod_cast hlt
  omega

theorem le_or_eq (h : IsNearest q k e) : 2 ^ 52 ≤ k ∨ e = leastExponent := by
  refine h.filled.symm.imp_left fun hfilled => ?_
  have hlt : (2 ^ 52 : ℚ) < k + 1 := by linarith [h.high]
  have : 2 ^ 52 < k + 1 := by exact_mod_cast hlt
  omega

/-- A quotient is rounded to what is nearest to it. -/
theorem ofQuotient_eq {num den : Nat} (h : IsNearest q k e) (hq : 0 < q) (hden : 0 < den)
    (hvalue : (num / den : ℚ) = q) (negative : Bool) :
    ofQuotient negative num den = compose negative k e :=
  Binary64.ofQuotient_eq hden (congrArg (· / (2 : ℚ) ^ e) hvalue) (div_pos hq (zpow_pos two_pos e))
    h.least h.full h.filled h.low h.high h.even negative

end IsNearest

/-- The greater of two rationals has the greater nearest number. -/
theorem RoundsTo.mono (h : RoundsTo q r) (h' : RoundsTo q' r') (hle : q ≤ q') : r ≤ r' := by
  obtain ⟨k, e, hnear, rfl⟩ := h
  obtain ⟨k', e', hnear', rfl⟩ := h'
  have hunit : (0 : ℚ) < 2 ^ e := zpow_pos two_pos e
  have hunit' : (0 : ℚ) < 2 ^ e' := zpow_pos two_pos e'
  have hmono : ∀ {a b : Int}, a ≤ b → (2 : ℚ) ^ a ≤ 2 ^ b := zpow_le_zpow_right₀ one_le_two
  rcases lt_trichotomy e e' with hlt | rfl | hgt
  · -- the mantissa is at most that of the least number in the next place
    have hk : (k : ℚ) ≤ 2 ^ 53 := by exact_mod_cast hnear.le
    have hk' : (2 ^ 52 : ℚ) ≤ k' := by
      have hleast := hnear.least
      exact_mod_cast hnear'.le_or_eq.resolve_right (by omega)
    calc (k * 2 ^ e : ℚ) ≤ 2 ^ 53 * 2 ^ e := mul_le_mul_of_nonneg_right hk hunit.le
      _ = 2 ^ 52 * 2 ^ (e + 1) := by rw [zpow_add_one₀ two_ne_zero]; ring
      _ ≤ 2 ^ 52 * 2 ^ e' := mul_le_mul_of_nonneg_left (hmono hlt) (by norm_num)
      _ ≤ k' * 2 ^ e' := mul_le_mul_of_nonneg_right hk' hunit'.le
  · refine mul_le_mul_of_nonneg_right ?_ hunit.le
    have hplaces : q / 2 ^ e ≤ q' / 2 ^ e := div_le_div_of_nonneg_right hle hunit.le
    by_contra hgt
    rw [not_le] at hgt
    have hnext : (k' + 1 : ℚ) ≤ k := by exact_mod_cast Nat.succ_le_of_lt (by exact_mod_cast hgt)
    -- only a middle is left, and it goes to the even one of its neighbours
    have hlow := hnear.low
    have hhigh := hnear'.high
    have heq : (k : ℚ) = k' + 1 := by linarith
    have heq' : k = k' + 1 := by exact_mod_cast heq
    have heven : k % 2 = 0 := hnear.even.resolve_right fun h => by linarith
    have heven' : k' % 2 = 0 := hnear'.even.resolve_right fun h => by linarith
    omega
  · -- the greater place is filled
    have hfilled : (2 ^ 52 : ℚ) ≤ q / 2 ^ e := by
      have hleast := hnear'.least
      exact hnear.filled.resolve_left (by omega)
    have hfull := hnear'.full
    rw [le_div_iff₀ hunit] at hfilled
    rw [div_lt_iff₀ hunit'] at hfull
    have hstep : (2 ^ 53 * 2 ^ e' : ℚ) ≤ 2 ^ 52 * 2 ^ e := by
      have := hmono (show e' + 1 ≤ e by omega)
      rw [zpow_add_one₀ two_ne_zero] at this
      linarith
    linarith

/-- There is one nearest number. -/
theorem RoundsTo.unique (h : RoundsTo q r) (h' : RoundsTo q r') : r = r' :=
  le_antisymm (h.mono h' le_rfl) (h'.mono h le_rfl)

/-- A number is nearest to itself. -/
theorem isNearest_self {mantissa : Nat} {exponent : Int} (hfits : Fits mantissa exponent) :
    IsNearest (mantissa * 2 ^ exponent) mantissa exponent := by
  have hunit : (0 : ℚ) < 2 ^ exponent := zpow_pos two_pos exponent
  have hmantissa : (mantissa * 2 ^ exponent / 2 ^ exponent : ℚ) = mantissa :=
    mul_div_cancel_right₀ _ hunit.ne'
  refine ⟨hfits.least_le, ?_, ?_, ?_, ?_, ?_⟩ <;> rw [hmantissa]
  · exact_mod_cast hfits.mantissa_lt
  · exact hfits.filled.symm.imp_right fun h => by exact_mod_cast h
  · linarith
  · linarith
  · exact .inr ⟨by linarith, by linarith⟩

end Nearest

/-! ### Values -/

section Values

variable {x y : Float} {q r : ℚ} {num den : Nat}

/-- The parts of a number are nearest to what it is worth. -/
theorem Denotes.roundsTo (h : Denotes x q) : RoundsTo q q := by
  obtain ⟨mantissa, exponent, hparts, rfl⟩ := h
  exact ⟨_, _, isNearest_self (of_parts_finite hparts).1, rfl⟩

/-- A mantissa and an exponent that make no number too great, with the carry carried out. -/
theorem exists_fits {k : Nat} {e : Int} (h : IsNearest q k e) (hk : (k * 2 ^ e : ℚ) < 2 ^ 1024) :
    ∃ mantissa exponent, Fits mantissa exponent ∧ (mantissa * 2 ^ exponent : ℚ) = k * 2 ^ e ∧
      ∀ negative, compose negative k e = compose negative mantissa exponent := by
  have hleast := h.least
  have hplace : leastExponent = -1074 := rfl
  have hbound : ∀ {n : Nat}, (2 : ℚ) ^ n ≤ k → e + n < 1024 := by
    intro n hn
    have hlt : (2 : ℚ) ^ (e + n) < 2 ^ (1024 : ℤ) := by
      rw [zpow_add₀ two_ne_zero, zpow_natCast, mul_comm]
      exact (mul_le_mul_of_nonneg_right hn (zpow_pos two_pos e).le).trans_lt hk
    exact (zpow_lt_zpow_iff_right₀ one_lt_two).1 hlt
  rcases Nat.lt_or_ge k (2 ^ 53) with hlt | hge
  · refine ⟨k, e, ⟨hlt, hleast, ?_, h.le_or_eq⟩, rfl, fun _ => rfl⟩
    rcases h.le_or_eq with hfilled | rfl
    · have := hbound (n := 52) (by exact_mod_cast hfilled)
      omega
    · decide
  · have hk : k = 2 ^ 53 := le_antisymm h.le hge
    have hexponent := hbound (n := 53) (by exact_mod_cast hge)
    refine ⟨2 ^ 52, e + 1, ⟨by decide, by omega, by omega, .inl le_rfl⟩, ?_, fun negative => ?_⟩
    · rw [hk, zpow_add_one₀ two_ne_zero]
      push_cast
      ring
    · rw [← compose_carry negative (by omega), Int.add_sub_cancel, hk]

/-- A quotient is rounded to the number nearest to it, unless it exceeds all numbers. -/
theorem denotes_ofQuotient (hden : 0 < den) (hvalue : (num / den : ℚ) = q) (hq : 0 < q)
    (h : RoundsTo q r) (hr : r < 2 ^ 1024) : Denotes (ofQuotient false num den) r := by
  obtain ⟨k, e, hnear, rfl⟩ := h
  obtain ⟨mantissa, exponent, hfits, hworth, hcompose⟩ := exists_fits hnear hr
  refine ⟨mantissa, exponent, ?_, hworth⟩
  rw [hnear.ofQuotient_eq hq hden hvalue, hcompose, parts_compose hfits]

theorem isFinite_of_denotes (h : Denotes x q) : isFinite x = true := by
  obtain ⟨mantissa, exponent, hparts, -⟩ := h
  rw [isFinite, hparts]

/-- A quotient that is rounded to a finite number is not nearest to one that exceeds all numbers. -/
theorem lt_of_isFinite (hden : 0 < den) (hvalue : (num / den : ℚ) = q) (hq : 0 < q) (h : RoundsTo q r)
    (hfinite : isFinite (ofQuotient false num den) = true) : r < 2 ^ 1024 := by
  obtain ⟨k, e, hnear, rfl⟩ := h
  by_contra hgreat
  rw [not_lt] at hgreat
  have hk := hnear.le
  have hk' : (k : ℚ) ≤ 2 ^ 53 := by exact_mod_cast hk
  have hplace : leastExponent = -1074 := rfl
  have hlarge : ∀ {n : Nat}, (k : ℚ) < 2 ^ n → 1024 < e + n := by
    intro n hn
    have hlt : (2 : ℚ) ^ (1024 : ℤ) < 2 ^ (e + n) := by
      rw [zpow_add₀ two_ne_zero, zpow_natCast, mul_comm]
      exact hgreat.trans_lt (mul_lt_mul_of_pos_right hn (zpow_pos two_pos e))
    exact (zpow_lt_zpow_iff_right₀ one_lt_two).1 hlt
  have hexponent := hlarge (n := 54) (hk'.trans_lt (by norm_num))
  have hfilled := hnear.le_or_eq.resolve_right (by omega)
  have hbits : min infinityBits ((e - leastExponent).toNat * leadingBit + k) = infinityBits := by
    have hinfinity : infinityBits = 2047 * 4503599627370496 := rfl
    rw [hinfinity, show leadingBit = 4503599627370496 from rfl, hplace]
    rcases Nat.lt_or_ge k (2 ^ 53) with hlt | hge
    · have := hlarge (n := 53) (by exact_mod_cast hlt)
      omega
    · omega
  rw [hnear.ofQuotient_eq hq hden hvalue, compose, hbits] at hfinite
  exact absurd hfinite (by decide)

/-- A number other than zero is known by its sign and what it is worth. -/
theorem eq_of_parts {negative : Bool} {m n : Nat} {e f : Int} (hx : parts x = .finite negative m e)
    (hy : parts y = .finite negative n f) (hvalue : (m * 2 ^ e : ℚ) = n * 2 ^ f) (hm : m ≠ 0) : x = y := by
  have hpos : (0 : ℚ) < m * 2 ^ e :=
    mul_pos (by exact_mod_cast Nat.pos_of_ne_zero hm) (zpow_pos two_pos e)
  have hnear := isNearest_self (of_parts_finite hx).1
  have hnear' := isNearest_self (of_parts_finite hy).1
  rw [← hvalue] at hnear'
  have hquotient := natAbs_div_den hpos
  rw [← compose_parts hx, ← compose_parts hy, ← hnear.ofQuotient_eq hpos (Rat.den_pos _) hquotient,
    ← hnear'.ofQuotient_eq hpos (Rat.den_pos _) hquotient]

/-- What lies in the neighbourhood of a number is rounded to it. -/
theorem roundsTo_of_contains {mantissa : Nat} {exponent : Int} (hm : mantissa ≠ 0)
    (hfits : Fits mantissa exponent)
    (h : (Decimal.Neighbourhood.around mantissa exponent).Contains q) :
    RoundsTo q (mantissa * 2 ^ exponent) := by
  have hq : 0 < q := by
    have hlower : (0 : ℚ) < Decimal.lowerEnd mantissa := by
      exact_mod_cast (Decimal.lowerEnd_spec hm).1
    exact (div_pos_iff_of_pos_right (zpow_pos two_pos _)).1 (hlower.trans_le h.bounds.1)
  have hvalue := natAbs_div_den hq
  have hcompose := Decimal.ofQuotient_of_contains (Rat.den_pos q) hm hfits (hvalue.symm ▸ h) false
  obtain ⟨k, e, hnear⟩ := exists_isNearest hq
  have hround : RoundsTo q (k * 2 ^ e) := ⟨k, e, hnear, rfl⟩
  have hfinite : isFinite (ofQuotient false q.num.natAbs q.den) = true := by
    rw [hcompose, isFinite, parts_compose hfits]
  have hlt := lt_of_isFinite (Rat.den_pos q) hvalue hq hround hfinite
  obtain ⟨m, f, hparts, hworth⟩ := denotes_ofQuotient (Rat.den_pos q) hvalue hq hround hlt
  rw [hcompose, parts_compose hfits] at hparts
  obtain ⟨-, rfl, rfl⟩ := Parts.finite.inj hparts
  rwa [hworth]

end Values

end HandlerScript.Binary64
