import HandlerScript.Proofs.Number.Zero
import Mathlib.Algebra.Group.Nat.Defs
import Mathlib.Tactic.Common

/-! Numbers, their bits and their parts.

    The bits of a number are three fields, and a number is taken out of them and put into them by the
    fields alone. Only NaN has fewer bit patterns than fields: all of its fractions stand for one number.
    So a number is its bits, its sign and magnitude make it, and it is put together from its parts.
    Negating it flips the sign among its parts, and it is below zero by its parts too. -/

namespace HandlerScript.Binary64

open Float.Model (Format UnpackedFloat)
open Float.Model.UnpackedFloat (unpack pack packComponents unpackSign unpackExponent unpackMantissa Sign)

/-! ### Fields -/

/-- The number whose bits have the given fields. -/
def ofFields (s : Sign) (e : BitVec 11) (m : BitVec 52) : UnpackedFloat :=
  if e = -1#11 then (if m = 0#52 then .infinity s else .notANumber)
  else if e = 0#11 then
    (if h : m = 0#52 then .zero s
      else .finite s m.toNat (-1074) (Nat.pos_of_ne_zero fun h' => h (BitVec.eq_of_toNat_eq h')))
  else .finite s (2 ^ 52 + m.toNat) (e.toNat - 1075) (Nat.add_pos_left (Nat.two_pow_pos 52) _)

section Fields

variable (s : Sign) (e : BitVec 11) (m : BitVec 52)

/-- Bits in front of bits are multiplied by the power of two that the length of the latter makes. -/
theorem toNat_append_eq {k n : Nat} (v : BitVec k) (w : BitVec n) :
    (v ++ w).toNat = 2 ^ n * v.toNat + w.toNat := by
  rw [BitVec.toNat_append, Nat.shiftLeft_eq, Nat.mul_comm]
  exact (Nat.two_pow_add_eq_or_of_lt w.isLt v.toNat).symm

theorem finite_congr {n n' : Nat} {p : Int} (h : 0 < n) (h' : 0 < n') (heq : n = n') :
    UnpackedFloat.finite s n p h = .finite s n' p h' := by
  subst heq
  rfl

theorem unpack_eq (b : BitVec Format.binary64.numBits) : unpack .binary64 b =
    ofFields (Sign.ofBitVec (unpackSign b)) (unpackExponent b) (unpackMantissa b) := by
  by_cases hlast : unpackExponent b = -1#11
  · exact (if_pos hlast).trans (if_pos hlast).symm
  · refine ((if_neg hlast).trans ?_).trans (if_neg hlast).symm
    by_cases hzero : unpackExponent b = 0#11
    · refine ((if_pos hzero).trans ?_).trans (if_pos hzero).symm
      rw [hzero]
      rfl
    · refine ((if_neg hzero).trans ?_).trans (if_neg hzero).symm
      exact finite_congr _ _ _ (toNat_append_eq 1#1 _)

/-- What fields stand for, with either sign. -/
theorem ofFields_cases (e : BitVec 11) (m : BitVec 52) :
    (e = -1#11 ∧ m = 0#52 ∧ ∀ s, ofFields s e m = .infinity s) ∨
      (e = -1#11 ∧ m ≠ 0#52 ∧ ∀ s, ofFields s e m = .notANumber) ∨
      (e = 0#11 ∧ m = 0#52 ∧ ∀ s, ofFields s e m = .zero s) ∨
      (e = 0#11 ∧ ∃ h, ∀ s, ofFields s e m = .finite s m.toNat (-1074) h) ∨
      (e ≠ -1#11 ∧ e ≠ 0#11 ∧
        ∃ h, ∀ s, ofFields s e m = .finite s (2 ^ 52 + m.toNat) (e.toNat - 1075) h) := by
  by_cases hlast : e = -1#11
  · by_cases hm : m = 0#52
    · exact .inl ⟨hlast, hm, fun s => (if_pos hlast).trans (if_pos hm)⟩
    · exact .inr (.inl ⟨hlast, hm, fun s => (if_pos hlast).trans (if_neg hm)⟩)
  · by_cases hzero : e = 0#11
    · by_cases hm : m = 0#52
      · exact .inr (.inr (.inl ⟨hzero, hm, fun s =>
          (if_neg hlast).trans ((if_pos hzero).trans (dif_pos hm))⟩))
      · exact .inr (.inr (.inr (.inl ⟨hzero, _, fun s =>
          (if_neg hlast).trans ((if_pos hzero).trans (dif_neg hm))⟩)))
    · exact .inr (.inr (.inr (.inr ⟨hlast, hzero, _, fun s =>
        (if_neg hlast).trans (if_neg hzero)⟩)))

theorem pack_finite (n : Nat) (p : Int) (h : 0 < n) : pack .binary64 (.finite s n p h) =
    if 2 ^ 11 ≤ (p + 1023 + 52).toNat + 1 then UnpackedFloat.packedInfinity .binary64 s
    else if n.log2 + 1 = 53 then
      packComponents .binary64 s (BitVec.ofNat 11 (p + 1023 + 52).toNat) (BitVec.ofNat 52 n)
    else packComponents .binary64 s 0#11 (BitVec.ofNat 52 n) := rfl

/-- Numbers other than NaN go back into the bits that they came from. -/
theorem pack_ofFields (h : e = -1#11 → m = 0#52) :
    pack .binary64 (ofFields s e m) = packComponents .binary64 s e m := by
  have hlt := m.isLt
  rcases ofFields_cases e m with ⟨rfl, rfl, hnumber⟩ | ⟨hlast, hm, -⟩ | ⟨rfl, rfl, hnumber⟩ |
    ⟨rfl, hpos, hnumber⟩ | ⟨hlast, -, hpos, hnumber⟩
  · rw [hnumber]
    rfl
  · exact absurd (h hlast) hm
  · rw [hnumber]
    rfl
  · have hlog : ¬ m.toNat.log2 + 1 = 53 := by
      have := (Nat.log2_lt (Nat.pos_iff_ne_zero.1 hpos)).2 hlt
      omega
    rw [hnumber, pack_finite, if_neg (by decide), if_neg hlog, BitVec.ofNat_toNat, BitVec.setWidth_eq]
  · have hlog : (2 ^ 52 + m.toNat).log2 + 1 = 53 := by
      have : (2 ^ 52 + m.toNat).log2 = 52 :=
        (Nat.log2_eq_iff (by omega)).2 ⟨by omega, by omega⟩
      omega
    have hbiased : ((e.toNat : Int) - 1075 + 1023 + 52).toNat = e.toNat := by omega
    have hsmall : ¬ 2 ^ 11 ≤ e.toNat + 1 := by
      have hne : e.toNat ≠ 2 ^ 11 - 1 := fun h => hlast (BitVec.eq_of_toNat_eq h)
      have := e.isLt
      omega
    have hmantissa : BitVec.ofNat 52 (2 ^ 52 + m.toNat) = m :=
      BitVec.eq_of_toNat_eq (by rw [BitVec.toNat_ofNat]; omega)
    rw [hnumber, pack_finite, hbiased, if_neg hsmall, if_pos hlog, BitVec.ofNat_toNat,
      BitVec.setWidth_eq, hmantissa]

theorem toNat_packComponents : (packComponents .binary64 s e m).toNat =
    2 ^ 52 * (2 ^ 11 * s.toBitVec.toNat + e.toNat) + m.toNat :=
  (toNat_append_eq (s.toBitVec ++ e) m).trans (by rw [toNat_append_eq])

/-- The fields of bits as quotients and remainders. -/
theorem toNat_unpack (b : BitVec Format.binary64.numBits) :
    (unpackSign b).toNat = b.toNat / 2 ^ 63 % 2 ∧ (unpackExponent b).toNat = b.toNat / 2 ^ 52 % 2 ^ 11 ∧
      (unpackMantissa b).toNat = b.toNat % 2 ^ 52 := by
  refine ⟨?_, ?_, ?_⟩
  · exact (BitVec.extractLsb_toNat 63 63 b).trans (by rw [Nat.shiftRight_eq_div_pow])
  · exact (BitVec.extractLsb_toNat 62 52 b).trans (by rw [Nat.shiftRight_eq_div_pow])
  · exact BitVec.extractLsb_toNat 51 0 b

theorem packComponents_unpack (b : BitVec Format.binary64.numBits) :
    packComponents .binary64 (Sign.ofBitVec (unpackSign b)) (unpackExponent b)
      (unpackMantissa b) = b := by
  have hsign : ∀ v : BitVec 1, (Sign.ofBitVec v).toBitVec = v := by decide
  have hlt : b.toNat < 2 ^ 64 := b.isLt
  obtain ⟨htop, hmiddle, hlow⟩ := toNat_unpack b
  refine BitVec.eq_of_toNat_eq ?_
  rw [toNat_packComponents, hsign, htop, hmiddle, hlow]
  omega

theorem unpackSign_packComponents :
    Sign.ofBitVec (unpackSign (packComponents .binary64 s e m)) = s := by
  have hsign : ∀ s : Sign, Sign.ofBitVec s.toBitVec = s := by rintro ⟨⟩ <;> rfl
  have hexponent := e.isLt
  have hmantissa := m.isLt
  have htop : unpackSign (packComponents .binary64 s e m) = s.toBitVec := by
    refine BitVec.eq_of_toNat_eq ?_
    have hone := s.toBitVec.isLt
    rw [(toNat_unpack _).1, toNat_packComponents]
    omega
  rw [htop, hsign]

theorem neg_ofFields : (ofFields s e m).neg = ofFields (-s) e m := by
  rcases ofFields_cases e m with ⟨-, -, hnumber⟩ | ⟨-, -, hnumber⟩ | ⟨-, -, hnumber⟩ |
    ⟨-, hpos, hnumber⟩ | ⟨-, -, hpos, hnumber⟩ <;>
  · rw [hnumber, hnumber]
    rfl

/-- A number that was negated is the same when it is taken out of its bits again. -/
theorem unpack_pack_neg (b : BitVec Format.binary64.numBits) :
    unpack .binary64 (pack .binary64 (unpack .binary64 b).neg) = (unpack .binary64 b).neg := by
  rw [unpack_eq b, neg_ofFields]
  generalize Sign.ofBitVec (unpackSign b) = s
  generalize (unpackExponent b : BitVec 11) = e
  generalize (unpackMantissa b : BitVec 52) = m
  by_cases hnumber : e = -1#11 → m = 0#52
  · rw [pack_ofFields _ _ _ hnumber, unpack_eq, unpackSign_packComponents,
      UnpackedFloat.unpackExponent_packComponents, UnpackedFloat.unpackMantissa_packComponents]
  · obtain ⟨hlast, hm⟩ := Classical.not_imp.1 hnumber
    rw [show ofFields (-s) e m = .notANumber from (if_pos hlast).trans (if_neg hm)]
    rfl

/-- The bits of a number are its only ones. -/
theorem pack_unpack {b : BitVec Format.binary64.numBits} (h : Format.binary64.Valid b) :
    pack .binary64 (unpack .binary64 b) = b := by
  rw [unpack_eq]
  by_cases hnumber : (unpackExponent b : BitVec 11) = -1#11 → (unpackMantissa b : BitVec 52) = 0#52
  · rw [pack_ofFields _ _ _ hnumber, packComponents_unpack]
  · obtain ⟨hlast, hm⟩ := Classical.not_imp.1 hnumber
    rw [show ofFields _ (unpackExponent b) (unpackMantissa b) = .notANumber from
      (if_pos hlast).trans (if_neg hm)]
    exact (h.eq_packedNaN hlast hm).symm

theorem ofBits_toBits (x : Float) : Float.ofBits x.toBits = x :=
  eq_of_toBits (UInt64.toBitVec_inj.1 (pack_unpack x.toModel.valid))

end Fields

/-! ### Parts -/

/-- The parts of a number as the library has it. -/
def Parts.ofUnpacked : UnpackedFloat → Parts
  | .notANumber => .nan
  | .infinity s => .infinite (s == .negative)
  | .zero s => .finite (s == .negative) 0 leastExponent
  | .finite s m e _ => .finite (s == .negative) m e

def Parts.neg : Parts → Parts
  | .nan => .nan
  | .infinite negative => .infinite !negative
  | .finite negative mantissa exponent => .finite (!negative) mantissa exponent

/-- Whether a number is below zero. -/
def Parts.isBelowZero : Parts → Bool
  | .nan => false
  | .infinite negative => negative
  | .finite negative mantissa _ => negative && mantissa != 0

section Parts

variable {x : Float} {negative : Bool} {mantissa : Nat} {exponent : Int}

theorem sign_eq (x : Float) :
    (Sign.ofBitVec (@unpackSign Format.binary64 x.toBits.toBitVec) == Sign.negative) =
      decide (signBit ≤ x.toBits.toNat) := by
  have hsign : ∀ v : BitVec 1, (Sign.ofBitVec v == Sign.negative) = decide (v.toNat = 1) := by decide
  have htop : (@unpackSign Format.binary64 x.toBits.toBitVec).toNat = x.toBits.toNat / 2 ^ 63 % 2 :=
    (toNat_unpack x.toBits.toBitVec).1
  have hlt := x.toBits.toNat_lt
  rw [hsign, htop, decide_eq_decide, show signBit = 9223372036854775808 from rfl]
  omega

/-- The parts of a number by its fields. -/
theorem ofUnpacked_ofFields (s : Sign) (e : BitVec 11) (m : BitVec 52) : Parts.ofUnpacked (ofFields s e m) =
    if e = -1#11 then (if m = 0#52 then .infinite (s == .negative) else .nan)
    else if e = 0#11 then .finite (s == .negative) m.toNat leastExponent
    else .finite (s == .negative) (2 ^ 52 + m.toNat) (e.toNat - 1075) := by
  rcases ofFields_cases e m with ⟨rfl, rfl, hnumber⟩ | ⟨rfl, hm, hnumber⟩ | ⟨rfl, rfl, hnumber⟩ |
    ⟨rfl, hpos, hnumber⟩ | ⟨hlast, hzero, hpos, hnumber⟩
  · rw [hnumber]
    rfl
  · rw [hnumber, if_pos rfl, if_neg hm]
    rfl
  · rw [hnumber]
    rfl
  · rw [hnumber]
    rfl
  · rw [hnumber, if_neg hlast, if_neg hzero]
    rfl

theorem parts_eq (x : Float) : parts x = .ofUnpacked x.toModel.unpack := by
  have hunpack : x.toModel.unpack = ofFields _ _ _ := unpack_eq x.toBits.toBitVec
  have hlast : x.toBits.toNat / leadingBit % 2048 = 2047 ↔
      @unpackExponent Format.binary64 x.toBits.toBitVec = -1#11 := by
    rw [← toNat_unpackExponent, ← BitVec.toNat_inj]
    rfl
  have hzero : x.toBits.toNat / leadingBit % 2048 = 0 ↔
      @unpackExponent Format.binary64 x.toBits.toBitVec = 0#11 := by
    rw [← toNat_unpackExponent, ← BitVec.toNat_inj]
    rfl
  have hfraction : x.toBits.toNat % leadingBit = 0 ↔
      @unpackMantissa Format.binary64 x.toBits.toBitVec = 0#52 := by
    rw [← toNat_unpackMantissa, ← BitVec.toNat_inj]
    rfl
  rw [hunpack, ofUnpacked_ofFields, parts, Parts.ofBits]
  simp only [hlast, hzero, hfraction, ← sign_eq]
  split
  · split <;> rfl
  · split
    · rw [← toNat_unpackMantissa]
    · rw [← toNat_unpackMantissa, ← toNat_unpackExponent]
      rfl

theorem parts_neg (x : Float) : parts (-x) = (parts x).neg := by
  have hneg : (-x).toModel.unpack = x.toModel.unpack.neg := unpack_pack_neg x.toBits.toBitVec
  have hsign : ∀ s : Sign, (-s == Sign.negative) = !(s == Sign.negative) := by rintro ⟨⟩ <;> rfl
  rw [parts_eq, parts_eq, hneg]
  cases x.toModel.unpack with
  | notANumber => rfl
  | infinity s => exact congrArg Parts.infinite (hsign s)
  | zero s => exact congrArg (Parts.finite · 0 leastExponent) (hsign s)
  | finite s m e h => exact congrArg (Parts.finite · m e) (hsign s)

theorem lt_zero_iff (x : Float) : x < 0.0 ↔ (parts x).isBelowZero = true := by
  have hlt : x < 0.0 ↔ x.toModel.unpack.lt (.zero .positive) = true := decide_eq_true_iff
  rw [hlt, parts_eq]
  cases x.toModel.unpack with
  | notANumber => exact ⟨nofun, nofun⟩
  | infinity s =>
    cases s with
    | negative => exact ⟨fun _ => rfl, fun _ => rfl⟩
    | positive => exact ⟨nofun, nofun⟩
  | zero s => cases s <;> exact ⟨nofun, nofun⟩
  | finite s m e h =>
    cases s with
    | negative =>
      have hbelow : (Parts.finite true m e).isBelowZero = true := bne_iff_ne.2 (Nat.ne_of_gt h)
      exact ⟨fun _ => hbelow, fun _ => rfl⟩
    | positive => exact ⟨nofun, nofun⟩

/-- A sign and the bits below it make the number. -/
theorem ofMagnitude_eq (x : Float) :
    ofMagnitude (decide (signBit ≤ x.toBits.toNat)) (x.toBits.toNat % signBit) = x := by
  have hlt := x.toBits.toNat_lt
  have hbits : (if signBit ≤ x.toBits.toNat then signBit + x.toBits.toNat % signBit
      else x.toBits.toNat % signBit) = x.toBits.toNat := by
    rw [show signBit = 9223372036854775808 from rfl]
    split <;> omega
  simp only [ofMagnitude, decide_eq_true_eq, hbits]
  rw [UInt64.ofNat_toNat, ofBits_toBits]

/-- The bits of a magnitude, cut at the ends of the field of the exponent. -/
theorem magnitude_eq (bits : Nat) :
    bits % signBit = bits / leadingBit % 2048 * leadingBit + bits % leadingBit := by
  rw [show signBit = 9223372036854775808 from rfl, show leadingBit = 4503599627370496 from rfl]
  omega

/-- A mantissa and an exponent that a number can have. -/
structure Fits (mantissa : Nat) (exponent : Int) : Prop where
  mantissa_lt : mantissa < 2 ^ 53
  least_le : leastExponent ≤ exponent
  exponent_le : exponent ≤ 971
  filled : 2 ^ 52 ≤ mantissa ∨ exponent = leastExponent

/-- A finite number has parts that fit, and its magnitude is put together from them. -/
theorem of_parts_finite (h : parts x = .finite negative mantissa exponent) :
    Fits mantissa exponent ∧ decide (signBit ≤ x.toBits.toNat) = negative ∧
      min infinityBits ((exponent - leastExponent).toNat * leadingBit + mantissa) =
        x.toBits.toNat % signBit := by
  have hfield := Nat.mod_lt (x.toBits.toNat / leadingBit) (show 0 < 2048 by decide)
  have hfraction := Nat.mod_lt x.toBits.toNat (show 0 < leadingBit by decide)
  rw [magnitude_eq x.toBits.toNat]
  simp only [parts, Parts.ofBits] at h
  generalize x.toBits.toNat / leadingBit % 2048 = field at *
  generalize x.toBits.toNat % leadingBit = fraction at *
  have hleast : leastExponent = -1074 := rfl
  have hleading : leadingBit = 4503599627370496 := rfl
  have hinfinity : infinityBits = 2047 * 4503599627370496 := rfl
  split at h
  · split at h <;> cases h
  · split at h
    · cases h
      exact ⟨⟨by omega, by omega, by omega, by omega⟩, rfl, by rw [hleading, hinfinity]; omega⟩
    · cases h
      exact ⟨⟨by omega, by omega, by omega, by omega⟩, rfl, by
        rw [hleading, hinfinity, hleast]; omega⟩

/-- A finite number is put together from its parts. -/
theorem compose_parts (h : parts x = .finite negative mantissa exponent) :
    compose negative mantissa exponent = x := by
  obtain ⟨-, hsign, hmagnitude⟩ := of_parts_finite h
  rw [compose, hmagnitude, ← hsign, ofMagnitude_eq]

theorem infinity_parts (h : parts x = .infinite negative) : infinity negative = x := by
  have hmagnitude := magnitude_eq x.toBits.toNat
  simp only [parts, Parts.ofBits] at h
  split at h
  · rename_i hlast
    split at h
    · rename_i hfraction
      cases h
      rw [hlast, hfraction] at hmagnitude
      have hinfinity : infinityBits = x.toBits.toNat % signBit := hmagnitude.symm
      rw [infinity, hinfinity, ofMagnitude_eq]
    · cases h
  · split at h <;> cases h

/-- There is one NaN. -/
theorem nan_parts (h : parts x = .nan) : nan = x := by
  rw [parts_eq] at h
  have hpacked : x = .ofModel (.pack x.toModel.unpack) := (ofBits_toBits x).symm
  rw [hpacked]
  cases hu : x.toModel.unpack with
  | notANumber => decide
  | infinity s => rw [hu] at h; cases h
  | zero s => rw [hu] at h; cases h
  | finite s m e => rw [hu] at h; cases h

end Parts

end HandlerScript.Binary64
