import HandlerScript.Number.Binary64

/-! Zero among the numbers.

    A number equals zero if its exponent and its fraction have no bit, whatever its sign is. So there are
    two such numbers, and the negative one is equal to zero but not the same. -/

namespace HandlerScript.Binary64

open Float.Model (Format UnpackedFloat)
open Float.Model.UnpackedFloat (unpack unpackExponent unpackMantissa)

section Zero

variable {x : Float} {bits : Nat} {negative : Bool} {exponent : Int}

/-- A number is zero by its parts if only its sign can have a bit. -/
theorem ofBits_eq_zero_iff : Parts.ofBits bits = .finite negative 0 exponent ↔
    bits / leadingBit % 2048 = 0 ∧ bits % leadingBit = 0 ∧ decide (signBit ≤ bits) = negative ∧
      leastExponent = exponent := by
  have hleading : leadingBit ≠ 0 := by decide
  unfold Parts.ofBits
  dsimp only
  split
  · rename_i hlast
    have hnot : (if bits % leadingBit = 0 then .infinite (decide (signBit ≤ bits)) else .nan) ≠
        Parts.finite negative 0 exponent := by
      split <;> rintro ⟨⟩
    exact ⟨fun h => absurd h hnot, fun h => absurd (hlast.symm.trans h.1) (by decide)⟩
  · split
    · rename_i hfield
      simp only [Parts.finite.injEq, hfield, true_and]
      exact and_left_comm
    · rename_i hfield
      simp only [Parts.finite.injEq, hfield, false_and, iff_false]
      omega

theorem toNat_unpackExponent (x : Float) :
    (@unpackExponent Format.binary64 x.toBits.toBitVec).toNat =
      x.toBits.toNat / leadingBit % 2048 := by
  rw [unpackExponent, BitVec.toNat_cast, BitVec.extractLsb_toNat, Nat.shiftRight_eq_div_pow]
  rfl

theorem toNat_unpackMantissa (x : Float) :
    (@unpackMantissa Format.binary64 x.toBits.toBitVec).toNat = x.toBits.toNat % leadingBit := by
  rw [unpackMantissa, BitVec.toNat_cast, BitVec.extractLsb_toNat, Nat.shiftRight_zero]
  rfl

theorem unpack_eq_zero_iff (b : BitVec Format.binary64.numBits) :
    (∃ sign, unpack Format.binary64 b = .zero sign) ↔
      (unpackExponent b).toNat = 0 ∧ (unpackMantissa b).toNat = 0 := by
  have hlast : (-1#11 : BitVec 11) ≠ 0#11 := by decide
  have hzero : ∀ {n : Nat} (v : BitVec n), v.toNat = 0 ↔ v = 0#n := fun v => by
    rw [← BitVec.toNat_inj, BitVec.toNat_ofNat, Nat.zero_mod]
  rw [hzero, hzero]
  by_cases hones : unpackExponent b = -1#11
  · have hnot : ∀ sign, unpack Format.binary64 b ≠ .zero sign := by
      intro sign
      by_cases hfraction : unpackMantissa b = 0#52
      · rw [show unpack Format.binary64 b = .infinity _ from (if_pos hones).trans (if_pos hfraction)]
        nofun
      · rw [show unpack Format.binary64 b = .notANumber from (if_pos hones).trans (if_neg hfraction)]
        nofun
    exact ⟨fun ⟨sign, h⟩ => absurd h (hnot sign), fun h => absurd (hones.symm.trans h.1) hlast⟩
  · by_cases hfield : unpackExponent b = 0#11
    · by_cases hfraction : unpackMantissa b = 0#52
      · exact ⟨fun _ => ⟨hfield, hfraction⟩, fun _ => ⟨_, (if_neg hones).trans
          ((if_pos hfield).trans (dif_pos hfraction))⟩⟩
      · have hsmall : unpack Format.binary64 b = .finite _ _ _ _ :=
          (if_neg hones).trans ((if_pos hfield).trans (dif_neg hfraction))
        rw [hsmall]
        exact ⟨nofun, fun h => absurd h.2 hfraction⟩
    · have hlarge : unpack Format.binary64 b = .finite _ _ _ _ := (if_neg hones).trans (if_neg hfield)
      rw [hlarge]
      exact ⟨nofun, fun h => absurd h.1 hfield⟩

theorem compare_zero_iff (u : UnpackedFloat) :
    u.beq (.zero .positive) = true ↔ ∃ sign, u = .zero sign := by
  cases u with
  | infinity sign => cases sign <;> exact ⟨nofun, nofun⟩
  | notANumber => exact ⟨nofun, nofun⟩
  | zero sign => exact ⟨fun _ => ⟨sign, rfl⟩, fun _ => rfl⟩
  | finite sign => cases sign <;> exact ⟨nofun, nofun⟩

/-- The numbers that are equal to zero. -/
theorem beq_zero_iff (x : Float) :
    (x == 0.0) = true ↔ ∃ negative exponent, parts x = .finite negative 0 exponent := by
  calc (x == 0.0) = true
      ↔ ∃ sign, unpack Format.binary64 x.toBits.toBitVec = .zero sign := compare_zero_iff _
    _ ↔ x.toBits.toNat / leadingBit % 2048 = 0 ∧ x.toBits.toNat % leadingBit = 0 := by
      rw [unpack_eq_zero_iff, toNat_unpackExponent, toNat_unpackMantissa]
    _ ↔ ∃ negative exponent, parts x = .finite negative 0 exponent := by
      simp [parts, ofBits_eq_zero_iff]

theorem eq_of_toBits {x y : Float} (h : x.toBits = y.toBits) : x = y := by
  obtain ⟨⟨bits, hbits⟩⟩ := x
  obtain ⟨⟨bits', hbits'⟩⟩ := y
  cases (h : bits = bits')
  rfl

/-- There is one negative zero. -/
theorem eq_neg_zero (h : parts x = .finite true 0 exponent) : x = -0.0 := by
  obtain ⟨hfield, hfraction, hsign, -⟩ := ofBits_eq_zero_iff.1 h
  have hlt := x.toBits.toNat_lt
  have hle : signBit ≤ x.toBits.toNat := of_decide_eq_true hsign
  have hbits : x.toBits.toNat = signBit := by
    rw [show leadingBit = 4503599627370496 from rfl] at hfield hfraction
    rw [show signBit = 9223372036854775808 from rfl] at hle ⊢
    omega
  exact eq_of_toBits (UInt64.toNat_inj.1 (hbits.trans rfl))

end Zero

end HandlerScript.Binary64
