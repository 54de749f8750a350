import HandlerScript.Proofs.Number.Nearest

/-! Products and quotients of numbers.

    A product is exact before it is rounded, and of a quotient the integer part and the place of the rest
    are known. Rounding cuts places off one at a time and keeps two bits for what was cut: whether it is
    half a unit or more, and whether it is anything else than none and half a unit. From these the nearest
    number is found. So products and quotients are rounded correctly. -/

namespace HandlerScript.Binary64

open Float.Model (Format UnpackedFloat totalExponent)
open Float.Model.UnpackedFloat

/-! ### What two bits know of a fraction -/

/-- What a mantissa and the two bits behind it say about the rational they were cut from. -/
inductive Represents : ExtendedMantissa → ℚ → Prop
  | exact (m : Nat) : Represents ⟨m, false, false⟩ m
  | below {m : Nat} {t : ℚ} (hlow : m < t) (hhigh : t < m + 1 / 2) : Represents ⟨m, false, true⟩ t
  | middle (m : Nat) : Represents ⟨m, true, false⟩ (m + 1 / 2)
  | above {m : Nat} {t : ℚ} (hlow : m + 1 / 2 < t) (hhigh : t < m + 1) : Represents ⟨m, true, true⟩ t

namespace Represents

variable {em : ExtendedMantissa} {t : ℚ}

theorem bounds (h : Represents em t) : (em.mantissa : ℚ) ≤ t ∧ t < em.mantissa + 1 := by
  cases h with
  | exact m => exact ⟨le_rfl, by linarith⟩
  | below hlow hhigh => exact ⟨hlow.le, by linarith⟩
  | middle m => exact ⟨by linarith, by linarith⟩
  | above hlow hhigh => exact ⟨by linarith, hhigh⟩

/-- The rounded mantissa is nearest. -/
theorem roundedMantissa (h : Represents em t) :
    (em.roundedMantissa - 1 / 2 : ℚ) ≤ t ∧ t ≤ em.roundedMantissa + 1 / 2 ∧
      (em.roundedMantissa % 2 = 0 ∨
        (em.roundedMantissa - 1 / 2 : ℚ) < t ∧ t < em.roundedMantissa + 1 / 2) := by
  cases h with
  | exact m =>
    have hrounded : ExtendedMantissa.roundedMantissa ⟨m, false, false⟩ = m := rfl
    rw [hrounded]
    exact ⟨by linarith, by linarith, .inr ⟨by linarith, by linarith⟩⟩
  | @below m t hlow hhigh =>
    have hrounded : ExtendedMantissa.roundedMantissa ⟨m, false, true⟩ = m := rfl
    rw [hrounded]
    exact ⟨by linarith, by linarith, .inr ⟨by linarith, by linarith⟩⟩
  | middle m =>
    have hrounded : ExtendedMantissa.roundedMantissa ⟨m, true, false⟩ = m + m % 2 := rfl
    rw [hrounded]
    rcases Nat.mod_two_eq_zero_or_one m with heven | hodd
    · rw [heven]
      exact ⟨by push_cast; linarith, by push_cast; linarith, .inl (by omega)⟩
    · rw [hodd]
      exact ⟨by push_cast; linarith, by push_cast; linarith, .inl (by omega)⟩
  | @above m t hlow hhigh =>
    have hrounded : ExtendedMantissa.roundedMantissa ⟨m, true, true⟩ = m + 1 := rfl
    rw [hrounded]
    push_cast
    exact ⟨by linarith, by linarith, .inr ⟨by linarith, by linarith⟩⟩

/-- Cutting one place off halves the rational. -/
theorem shiftRightOne (h : Represents em t) : Represents em.shiftRightOne (t / 2) := by
  have hshift : ∀ (m : Nat) (r s : Bool), ExtendedMantissa.shiftRightOne ⟨m, r, s⟩ =
      ⟨m / 2, m % 2 != 0, r || s⟩ := fun _ _ _ => rfl
  have heven : ∀ (n : Nat) (r s : Bool),
      ExtendedMantissa.shiftRightOne ⟨2 * n, r, s⟩ = ⟨n, false, r || s⟩ := by
    intro n r s
    rw [hshift, Nat.mul_div_cancel_left n two_pos, Nat.mul_mod_right]
    rfl
  have hodd : ∀ (n : Nat) (r s : Bool),
      ExtendedMantissa.shiftRightOne ⟨2 * n + 1, r, s⟩ = ⟨n, true, r || s⟩ := by
    intro n r s
    have hdiv : (2 * n + 1) / 2 = n := by omega
    rw [hshift, hdiv, Nat.mul_add_mod]
    rfl
  cases h with
  | exact m =>
    obtain ⟨n, rfl | rfl⟩ := Nat.even_or_odd' m
    · have hhalf : ((2 * n : ℕ) / 2 : ℚ) = n := by push_cast; ring
      rw [heven, hhalf]
      exact exact n
    · have hhalf : ((2 * n + 1 : ℕ) / 2 : ℚ) = n + 1 / 2 := by push_cast; ring
      rw [hodd, hhalf]
      exact middle n
  | @below m t hlow hhigh =>
    obtain ⟨n, rfl | rfl⟩ := Nat.even_or_odd' m <;> push_cast at hlow hhigh
    · rw [heven]
      exact below (by linarith) (by linarith)
    · rw [hodd]
      exact above (by linarith) (by linarith)
  | middle m =>
    obtain ⟨n, rfl | rfl⟩ := Nat.even_or_odd' m
    · rw [heven]
      refine below ?_ ?_ <;>
      · push_cast
        linarith
    · rw [hodd]
      refine above ?_ ?_ <;>
      · push_cast
        linarith
  | @above m t hlow hhigh =>
    obtain ⟨n, rfl | rfl⟩ := Nat.even_or_odd' m <;> push_cast at hlow hhigh
    · rw [heven]
      exact below (by linarith) (by linarith)
    · rw [hodd]
      exact above (by linarith) (by linarith)

/-- Cutting places off divides by a power of two. -/
theorem shiftRight (h : Represents em t) (n : Nat) : Represents (em >>> n) (t / 2 ^ n) := by
  induction n with
  | zero =>
    rw [pow_zero, div_one]
    exact h
  | succ n ih =>
    rw [pow_succ, ← div_div]
    exact ih.shiftRightOne

end Represents

/-- The rest of a division decides the two bits. -/
theorem represents_fraction {r d : Nat} (hr : r < d) (m : Nat) :
    Represents (.ofMantissaAndAccuracy m (accuracyOfFraction r d)) (m + r / d) := by
  have hd : (0 : ℚ) < d := by exact_mod_cast Nat.zero_lt_of_lt hr
  have hlt : (r / d : ℚ) < 1 := (div_lt_one hd).2 (by exact_mod_cast hr)
  have haccuracy : accuracyOfFraction r d =
      if r = 0 then .exact else .inexact (compare (2 * r) d) := rfl
  rw [haccuracy]
  by_cases hzero : r = 0
  · rw [if_pos hzero, hzero, Nat.cast_zero, zero_div, add_zero]
    exact .exact m
  · have hpos : (0 : ℚ) < r / d := div_pos (by exact_mod_cast Nat.pos_of_ne_zero hzero) hd
    rw [if_neg hzero]
    rcases Nat.lt_trichotomy (2 * r) d with hbelow | hmiddle | habove
    · have hhalf : (r / d : ℚ) < 1 / 2 := by
        rw [div_lt_iff₀ hd]
        have : (2 * r : ℚ) < d := by exact_mod_cast hbelow
        linarith
      rw [Nat.compare_eq_lt.2 hbelow]
      exact .below (by linarith) (by linarith)
    · have hhalf : (r / d : ℚ) = 1 / 2 := by
        rw [div_eq_iff hd.ne']
        have : (2 * r : ℚ) = d := by exact_mod_cast hmiddle
        linarith
      rw [Nat.compare_eq_eq.2 hmiddle, hhalf]
      exact .middle m
    · have hhalf : (1 / 2 : ℚ) < r / d := by
        rw [lt_div_iff₀ hd]
        have : (d : ℚ) < 2 * r := by exact_mod_cast habove
        linarith
      rw [Nat.compare_eq_gt.2 habove]
      exact .above (by linarith) (by linarith)

/-! ### Putting numbers together -/

section Pack

variable {s : Sign} {mantissa : Nat} {exponent : Int}

/-- A number is put together by its sign and its magnitude. -/
theorem ofModel_pack {u : UnpackedFloat} {bits : Nat} (hbits : bits < 2 ^ 63)
    (h : (pack .binary64 u).toNat = 2 ^ 63 * s.toBitVec.toNat + bits) :
    Float.ofModel (.pack u) = ofMagnitude (s == .negative) bits := by
  have hnumber : Float.ofModel (.pack u) = .ofBits (.ofBitVec (pack .binary64 u)) :=
    (ofBits_toBits _).symm
  rw [hnumber, ofMagnitude]
  congr 1
  refine UInt64.toNat_inj.1 (h.trans ?_)
  rw [UInt64.toNat_ofNat']
  cases s with
  | positive =>
    have hall : 2 ^ 63 * 0 + bits = bits % 2 ^ 64 := by omega
    exact hall
  | negative =>
    have hall : 2 ^ 63 * 1 + bits = (2 ^ 63 + bits) % 2 ^ 64 := by omega
    exact hall

theorem ofModel_pack_zero (s : Sign) : Float.ofModel (.pack (.zero s)) = zero (s == .negative) := by
  cases s <;> rfl

/-- A mantissa that fills its places, or an exponent that is least, is put together as the parts of a
    number are, and what exceeds all numbers is infinite. -/
theorem ofModel_pack_finite (hlt : mantissa < 2 ^ 53) (hleast : leastExponent ≤ exponent)
    (hfilled : 2 ^ 52 ≤ mantissa ∨ exponent = leastExponent) (hpos : 0 < mantissa) :
    Float.ofModel (.pack (.finite s mantissa exponent hpos)) =
      compose (s == .negative) mantissa exponent := by
  have hleading : leadingBit = 4503599627370496 := rfl
  have hinfinity : infinityBits = 2047 * 4503599627370496 := rfl
  have hplace : leastExponent = -1074 := rfl
  have hlog : mantissa.log2 + 1 = 53 ↔ 2 ^ 52 ≤ mantissa := by
    have hlow := Nat.le_log2 (k := 52) hpos.ne'
    have hhigh := Nat.log2_lt (k := 53) hpos.ne'
    omega
  refine ofModel_pack (by rw [hinfinity]; omega) ?_
  rw [pack_finite, hinfinity, hleading]
  by_cases hgreat : 2 ^ 11 ≤ (exponent + 1023 + 52).toNat + 1
  · have hones : (-1#11).toNat = 2047 := rfl
    rw [if_pos hgreat]
    refine (toNat_packComponents s (-1#11) 0#52).trans ?_
    rw [hones, BitVec.toNat_zero]
    omega
  · rw [if_neg hgreat]
    by_cases hfull : 2 ^ 52 ≤ mantissa
    · rw [if_pos (hlog.2 hfull), toNat_packComponents, BitVec.toNat_ofNat, BitVec.toNat_ofNat]
      omega
    · rw [if_neg fun h => hfull (hlog.1 h), toNat_packComponents, BitVec.toNat_ofNat,
        BitVec.toNat_ofNat]
      omega

/-- The same where the mantissa may be zero. -/
theorem ofModel_pack_cut (hlt : mantissa < 2 ^ 53) (hleast : leastExponent ≤ exponent)
    (hfilled : 2 ^ 52 ≤ mantissa ∨ exponent = leastExponent) :
    Float.ofModel (.pack (if h : mantissa = 0 then .zero s
      else .finite s mantissa exponent (Nat.pos_of_ne_zero h))) =
      compose (s == .negative) mantissa exponent := by
  by_cases hzero : mantissa = 0
  · have hexponent : exponent = leastExponent := hfilled.resolve_left (by omega)
    rw [dif_pos hzero, ofModel_pack_zero, hzero, hexponent]
    rfl
  · rw [dif_neg hzero]
    exact ofModel_pack_finite hlt hleast hfilled (Nat.pos_of_ne_zero hzero)

end Pack

/-! ### Rounding with what is known of the rest -/

/-- The place that a mantissa is cut at. -/
def cutPlace (mantissa : Nat) (exponent : Int) : Int :=
  max ((mantissa.log2 : Int) + 1 + exponent - 53) (-1074)

section Round

variable {s : Sign} {m k num den : Nat} {e : Int} {accuracy : Accuracy} {t : ℚ}

/-- What is cut off at its place. -/
theorem shiftToTargetExponent_eq {n : Nat} (accuracy : Accuracy) (h : (cutPlace m e - e).toNat = n) :
    shiftToTargetExponent .binary64 m e accuracy =
      (ExtendedMantissa.ofMantissaAndAccuracy m accuracy >>> n, e + n) := by
  rw [← h]
  rfl

/-- A rounded mantissa is at its place already, unless it has carried. -/
theorem roundWithAccuracy_eq (hcut : (shiftToTargetExponent .binary64 m e accuracy).1.roundedMantissa = k)
    {e' : Int} (hexponent : (shiftToTargetExponent .binary64 m e accuracy).2 = e')
    (hk : k ≤ 2 ^ 53) (hleast : leastExponent ≤ e') (hfilled : 2 ^ 52 ≤ k ∨ e' = leastExponent) :
    Float.ofModel (.pack (roundWithAccuracy .binary64 s m e accuracy)) =
      compose (s == .negative) k e' := by
  have hplace : leastExponent = -1074 := rfl
  have hround : roundWithAccuracy .binary64 s m e accuracy =
      let final := shiftToTargetExponent .binary64 k e' .exact
      if h : final.1.mantissa = 0 then .zero s
      else .finite s final.1.mantissa final.2 (Nat.pos_of_ne_zero h) := by
    rw [← hcut, ← hexponent]
    rfl
  rw [hround]
  rcases Nat.lt_or_ge k (2 ^ 53) with hlt | hge
  · have hstay : (cutPlace k e' - e').toNat = 0 := by
      have hlog : k.log2 < 53 := by
        rcases Nat.eq_zero_or_pos k with rfl | hpos
        · decide
        · exact (Nat.log2_lt hpos.ne').2 hlt
      rw [cutPlace]
      omega
    rw [shiftToTargetExponent_eq _ hstay, Nat.cast_zero, Int.add_zero]
    exact ofModel_pack_cut hlt hleast hfilled
  · have hcarried : k = 2 ^ 53 := le_antisymm hk hge
    have hnext : (cutPlace k e' - e').toNat = 1 := by
      rw [cutPlace, hcarried, Nat.log2_two_pow]
      omega
    have hhalf : (ExtendedMantissa.ofMantissaAndAccuracy (2 ^ 53) .exact >>> 1).mantissa = 2 ^ 52 := rfl
    have hcarry := compose_carry (s == .negative) (show leastExponent < e' + 1 by omega)
    rw [Int.add_sub_cancel] at hcarry
    rw [shiftToTargetExponent_eq _ hnext, hcarried, hcarry, ← hhalf]
    exact ofModel_pack_cut (by rw [hhalf]; decide) (by omega) (.inl hhalf.ge)

/-- At its place a mantissa has 53 digits, or the place is the least. -/
theorem cutPlace_spec {n : Nat} (h : cutPlace m e = e + n) : leastExponent ≤ e + n ∧
    m + 1 ≤ 2 ^ 53 * 2 ^ n ∧ (e + n = leastExponent ∨ 2 ^ 52 * 2 ^ n ≤ m) := by
  rw [← Nat.pow_add, ← Nat.pow_add]
  rw [cutPlace] at h
  refine ⟨h ▸ le_max_right _ _, Nat.lt_log2_self.trans_le (Nat.pow_le_pow_right two_pos ?_), ?_⟩
  · omega
  · rcases max_choice ((m.log2 : Int) + 1 + e - 53) (-1074) with hmax | hmax
    · have hlog : m.log2 = 52 + n := by omega
      have hm : m ≠ 0 := by
        rintro rfl
        rw [Nat.log2_zero] at hlog
        omega
      exact .inr (hlog ▸ Nat.log2_self_le hm)
    · exact .inl (h.symm.trans hmax)

/-- What is known of a rational decides the number nearest to it. -/
theorem ofModel_roundWithAccuracy (h : Represents (.ofMantissaAndAccuracy m accuracy) t) (ht : 0 < t)
    (he : e ≤ cutPlace m e) (hden : 0 < den) (hvalue : (num / den : ℚ) = t * 2 ^ e) :
    Float.ofModel (.pack (roundWithAccuracy .binary64 s m e accuracy)) =
      ofQuotient (s == .negative) num den := by
  obtain ⟨n, hn⟩ := Int.eq_ofNat_of_zero_le (Int.sub_nonneg_of_le he)
  have hmantissa : (ExtendedMantissa.ofMantissaAndAccuracy m accuracy).mantissa = m := by
    cases accuracy with
    | exact => rfl
    | inexact o => cases o <;> rfl
  obtain ⟨hfloor, hceiling⟩ := h.bounds
  rw [hmantissa] at hfloor hceiling
  obtain ⟨hleast, hfull, hfilled⟩ := cutPlace_spec (show cutPlace m e = e + n by omega)
  obtain ⟨hlow, hhigh, heven⟩ := (h.shiftRight n).roundedMantissa
  have hunit : (0 : ℚ) < 2 ^ e := zpow_pos two_pos e
  have htwo : (0 : ℚ) < 2 ^ n := pow_pos two_pos n
  have hcut : t * 2 ^ e / 2 ^ (e + n : ℤ) = t / 2 ^ n := by
    rw [zpow_add₀ two_ne_zero, zpow_natCast, mul_comm t, mul_div_mul_left _ _ hunit.ne']
  have hnear : IsNearest (t * 2 ^ e)
      (ExtendedMantissa.ofMantissaAndAccuracy m accuracy >>> n).roundedMantissa (e + n) := by
    refine ⟨hleast, ?_, hfilled.imp_right fun hlarge => ?_, ?_, ?_, ?_⟩ <;> rw [hcut]
    · have hfull' : (m + 1 : ℚ) ≤ 2 ^ 53 * 2 ^ n := by exact_mod_cast hfull
      exact (div_lt_iff₀ htwo).2 (hceiling.trans_le hfull')
    · have hlarge' : (2 ^ 52 * 2 ^ n : ℚ) ≤ m := by exact_mod_cast hlarge
      exact (le_div_iff₀ htwo).2 (hlarge'.trans hfloor)
    · exact hlow
    · exact hhigh
    · exact heven
  have hshift := shiftToTargetExponent_eq accuracy (show (cutPlace m e - e).toNat = n by omega)
  rw [hnear.ofQuotient_eq (mul_pos ht hunit) hden hvalue]
  exact roundWithAccuracy_eq (congrArg (·.1.roundedMantissa) hshift) (congrArg (·.2) hshift) hnear.le
    hleast hnear.le_or_eq

end Round

/-! ### Products and quotients -/

section Operations

variable {x y : Float} {p q : ℚ} {num den : Nat}

theorem Denotes.unpack_eq (h : Denotes x q) (hq : 0 < q) : ∃ m e hm,
    x.toModel.unpack = .finite .positive m e hm ∧ Fits m e ∧ (m * 2 ^ e : ℚ) = q := by
  obtain ⟨m, e, hparts, hvalue⟩ := h
  have hfits := (of_parts_finite hparts).1
  rw [parts_eq] at hparts
  cases hunpack : x.toModel.unpack with
  | notANumber => rw [hunpack] at hparts; cases hparts
  | infinity s => rw [hunpack] at hparts; cases hparts
  | zero s =>
    rw [hunpack] at hparts
    obtain ⟨-, rfl, -⟩ := Parts.finite.inj hparts
    rw [Nat.cast_zero, zero_mul] at hvalue
    exact absurd hvalue hq.ne
  | finite s m' e' hm =>
    rw [hunpack] at hparts
    obtain ⟨hsign, rfl, rfl⟩ := Parts.finite.inj hparts
    cases s with
    | positive => exact ⟨_, _, hm, rfl, hfits, hvalue⟩
    | negative => cases hsign

/-- A product is the number nearest to the product. -/
theorem Denotes.mul_eq (hx : Denotes x p) (hy : Denotes y q) (hp : 0 < p) (hq : 0 < q) (hden : 0 < den)
    (hvalue : (num / den : ℚ) = p * q) : x * y = ofQuotient false num den := by
  obtain ⟨m, e, hm, hunpack, hfits, rfl⟩ := hx.unpack_eq hp
  obtain ⟨n, f, hn, hunpack', hfits', rfl⟩ := hy.unpack_eq hq
  have hmul : x * y = .ofModel (.pack (mul .binary64 x.toModel.unpack y.toModel.unpack)) := rfl
  have hplace : e + f ≤ cutPlace (m * n) (e + f) := by
    have hleast : leastExponent = -1074 := rfl
    rcases Nat.lt_or_ge (m * n) (2 ^ 52) with hsmall | hlarge
    · have he := hfits.filled.resolve_left fun h =>
        (h.trans (Nat.le_mul_of_pos_right m hn)).not_gt hsmall
      have hf := hfits'.filled.resolve_left fun h =>
        (h.trans (Nat.le_mul_of_pos_left n hm)).not_gt hsmall
      exact le_max_of_le_right (by omega)
    · have hlog := (Nat.le_log2 (Nat.mul_pos hm hn).ne').2 hlarge
      exact le_max_of_le_left (by omega)
  rw [hmul, hunpack, hunpack']
  refine ofModel_roundWithAccuracy (.exact (m * n)) (by exact_mod_cast Nat.mul_pos hm hn) hplace hden ?_
  rw [hvalue, zpow_add₀ two_ne_zero]
  push_cast
  ring

/-- A mantissa is shifted before it is divided, so that the quotient has enough places. -/
theorem div_finite {m n : Nat} (hm : 0 < m) (hn : 0 < n) (e f : Int) : ∃ (place : Int) (k : Nat),
    place = min (e - f) (max ((m.log2 : Int) + 1 + e - (n.log2 + 1 + f) - 53) (-1074)) ∧
      e - f - place = k ∧ div .binary64 (.finite .positive m e hm) (.finite .positive n f hn) =
        roundWithAccuracy .binary64 .positive (m * 2 ^ k / n) place
          (accuracyOfFraction (m * 2 ^ k % n) n) := by
  refine ⟨_, (e - f - min (e - f) _).toNat, rfl, (Int.toNat_of_nonneg ?_).symm, ?_⟩
  · omega
  · rw [← Nat.shiftLeft_eq]
    rfl

/-- A quotient is the number nearest to the quotient. -/
theorem Denotes.div_eq (hx : Denotes x p) (hy : Denotes y q) (hp : 0 < p) (hq : 0 < q) (hden : 0 < den)
    (hvalue : (num / den : ℚ) = p / q) : x / y = ofQuotient false num den := by
  obtain ⟨m, e, hm, hunpack, hfits, rfl⟩ := hx.unpack_eq hp
  obtain ⟨n, f, hn, hunpack', hfits', rfl⟩ := hy.unpack_eq hq
  have hdiv : x / y = .ofModel (.pack (div .binary64 x.toModel.unpack y.toModel.unpack)) := rfl
  obtain ⟨place, k, hplace, hk, hround⟩ := div_finite hm hn e f
  have hn' : (0 : ℚ) < n := by exact_mod_cast hn
  have hquotient : ((m * 2 ^ k / n : ℕ) + (m * 2 ^ k % n : ℕ) / n : ℚ) = m * 2 ^ k / n := by
    rw [eq_div_iff hn'.ne', add_mul, div_mul_cancel₀ _ hn'.ne']
    exact_mod_cast Nat.div_add_mod' (m * 2 ^ k) n
  rw [hdiv, hunpack, hunpack', hround]
  refine ofModel_roundWithAccuracy (represents_fraction (Nat.mod_lt _ hn) _) ?_ ?_ hden ?_
  · rw [hquotient]
    have hm' : (0 : ℚ) < m := by exact_mod_cast hm
    positivity
  · -- the quotient was shifted far enough to fill its places, unless its place is the least
    rcases Int.lt_or_le (-1074) place with habove | hleast
    · have hshift : n.log2 + 53 ≤ m.log2 + k := by omega
      have hlog : 52 ≤ (m * 2 ^ k / n).log2 := by
        have hlarge : 2 ^ 52 ≤ m * 2 ^ k / n := by
          rw [Nat.le_div_iff_mul_le hn]
          calc 2 ^ 52 * n ≤ 2 ^ 52 * 2 ^ (n.log2 + 1) := Nat.mul_le_mul_left _ Nat.lt_log2_self.le
            _ = 2 ^ (n.log2 + 53) := by rw [← Nat.pow_add]; congr 1; omega
            _ ≤ 2 ^ (m.log2 + k) := Nat.pow_le_pow_right two_pos hshift
            _ ≤ m * 2 ^ k := by
              rw [Nat.pow_add]
              exact Nat.mul_le_mul_right _ (Nat.log2_self_le hm.ne')
        exact (Nat.le_log2 (Nat.ne_of_gt (Nat.lt_of_lt_of_le (by decide) hlarge))).2 hlarge
      exact le_max_of_le_left (by omega)
    · exact le_max_of_le_right hleast
  · have hk' : (2 : ℚ) ^ k * 2 ^ place = 2 ^ (e - f) := by
      rw [← zpow_natCast, ← zpow_add₀ two_ne_zero]
      congr 1
      omega
    rw [hquotient, hvalue, div_mul_eq_mul_div, mul_assoc, hk', zpow_sub₀ two_ne_zero]
    field_simp

theorem Denotes.mul {r : ℚ} (hx : Denotes x p) (hy : Denotes y q) (hp : 0 < p) (hq : 0 < q)
    (h : RoundsTo (p * q) r) (hr : r < 2 ^ 1024) : Denotes (x * y) r := by
  have hpos := mul_pos hp hq
  rw [hx.mul_eq hy hp hq (Rat.den_pos _) (natAbs_div_den hpos)]
  exact denotes_ofQuotient (Rat.den_pos _) (natAbs_div_den hpos) hpos h hr

theorem Denotes.div {r : ℚ} (hx : Denotes x p) (hy : Denotes y q) (hp : 0 < p) (hq : 0 < q)
    (h : RoundsTo (p / q) r) (hr : r < 2 ^ 1024) : Denotes (x / y) r := by
  have hpos := div_pos hp hq
  rw [hx.div_eq hy hp hq (Rat.den_pos _) (natAbs_div_den hpos)]
  exact denotes_ofQuotient (Rat.den_pos _) (natAbs_div_den hpos) hpos h hr

/-- A finite product is not too great for a number. -/
theorem Denotes.lt_of_isFinite_mul {r : ℚ} (hx : Denotes x p) (hy : Denotes y q) (hp : 0 < p)
    (hq : 0 < q) (h : RoundsTo (p * q) r) (hfinite : Binary64.isFinite (x * y) = true) : r < 2 ^ 1024 := by
  have hpos := mul_pos hp hq
  rw [hx.mul_eq hy hp hq (Rat.den_pos _) (natAbs_div_den hpos)] at hfinite
  exact lt_of_isFinite (Rat.den_pos _) (natAbs_div_den hpos) hpos h hfinite

end Operations

end HandlerScript.Binary64
