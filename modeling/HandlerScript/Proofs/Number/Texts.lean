import HandlerScript.Number.Shortest
import HandlerScript.Proofs.Text.Characters

/-! Texts of numbers.

    A finite number is written in digits, with a point among them and a sign in front. The shortest decimal
    of a number other than zero is not zero: a decimal reads back as the number only if it lies in the
    interval around it, and the interval is positive. So some digit of its text is not `0`. The digits of
    zero are a single `0`, with a sign in front if it is negative. -/

namespace HandlerScript.Decimal

/-! ### Digits -/

section Digits

variable {n : Nat} {c : Char}

theorem isDigit_eq (c : Char) : isDigit c = c.isDigit := by
  have hdigit : isDigit c = true ↔ '0' ≤ c ∧ c ≤ '9' := by
    unfold isDigit digit?
    split <;> simp_all
  have hcodes : '0' ≤ c ∧ c ≤ '9' ↔ 48 ≤ c.toNat ∧ c.toNat ≤ 57 :=
    and_congr UInt32.le_iff_toNat_le UInt32.le_iff_toNat_le
  rw [Bool.eq_iff_iff, hdigit, hcodes, Text.isDigit_iff]

/-- A digit is neither a blank nor a letter. -/
theorem class_of_isDigit (h : isDigit c = true) :
    Text.isBlank c = false ∧ c.isAlpha = false := by
  rw [isDigit_eq] at h
  exact ⟨Text.isBlank_of_isAlphanum (Text.isAlphanum_iff.2 (.inr h)),
    Text.isAlpha_of_isDigit h⟩

theorem isDigit_ofNat : ∀ d < 10, isDigit (Char.ofNat (48 + d)) = true ∧
    (d ≠ 0 → Char.ofNat (48 + d) ≠ '0') := by
  decide

theorem isDigit_of_mem_digits : ∀ c ∈ digits n, isDigit c = true := by
  induction n using digits.induct with
  | case1 n hn =>
    rw [digits, if_pos hn]
    exact fun c hc => List.mem_singleton.1 hc ▸ (isDigit_ofNat n hn).1
  | case2 n hn ih =>
    rw [digits, if_neg hn]
    intro c hc
    rcases List.mem_append.1 hc with hc | hc
    · exact ih c hc
    · exact List.mem_singleton.1 hc ▸ (isDigit_ofNat _ (Nat.mod_lt n (by decide))).1

/-- A positive number has a digit other than zero. -/
theorem exists_digit (h : n ≠ 0) : ∃ c ∈ digits n, c ≠ '0' := by
  induction n using digits.induct with
  | case1 n hn =>
    rw [digits, if_pos hn]
    exact ⟨_, List.mem_singleton_self _, (isDigit_ofNat n hn).2 h⟩
  | case2 n hn ih =>
    obtain ⟨c, hc, hzero⟩ := ih (by omega)
    rw [digits, if_neg hn]
    exact ⟨c, List.mem_append_left _ hc, hzero⟩

end Digits

/-! ### The shortest decimal -/

section Shortest

theorem Neighbourhood.holds_zero {i : Neighbourhood} (h : 0 < i.low) : i.holds 0 = false := by
  unfold holds
  split
  · simp only [Nat.zero_mul, Bool.and_eq_false_iff, decide_eq_false_iff_not]
    exact .inl (by omega)
  · simp

/-- What is picked lies in the interval, so it is not zero if the interval is positive. -/
theorem Neighbourhood.pick?_ne_zero {tie : Tie} {i : Neighbourhood} {v : Nat} (h : 0 < i.low)
    (hv : i.pick? tie = some v) : v ≠ 0 := by
  -- the upper neighbour is positive by itself, the lower one is taken only if it reads back
  have hholds : i.holds v = true ∨ v = i.number / i.den + 1 := by
    unfold pick? at hv
    grind
  rintro rfl
  rcases hholds with hzero | hsucc
  · rw [holds_zero h] at hzero
    cases hzero
  · exact absurd hsucc.symm (Nat.succ_ne_zero _)

theorem Neighbourhood.low_pos {mantissa : Nat} (h : mantissa ≠ 0) (exponent e : Int) :
    0 < ((around mantissa exponent).inUnits e).low := by
  have hmantissa : 0 < if mantissa = Binary64.leadingBit then 4 * mantissa - 1
      else 4 * mantissa - 2 := by
    split <;> omega
  have hfactor : 0 < 1 <<< (exponent - 2).toNat := by
    rw [Nat.shiftLeft_eq, Nat.one_mul]
    exact Nat.pow_pos (by decide)
  exact Nat.mul_pos (Nat.mul_pos hmantissa hfactor) (Nat.pow_pos (by decide))

theorem Scientific.strip_ne_zero (fuel : Nat) {d : Scientific} (h : d.value ≠ 0) :
    (d.strip fuel).value ≠ 0 := by
  induction fuel generalizing d with
  | zero => exact h
  | succ fuel ih =>
    rw [strip]
    split
    · rename_i hzeros
      rw [Bool.and_eq_true, decide_eq_true_eq] at hzeros
      exact ih (by dsimp only; omega)
    · exact h

/-- The shortest decimal of a positive number is positive. -/
theorem shortest_ne_zero (tie : Tie) {mantissa : Nat} (h : mantissa ≠ 0) (exponent : Int) :
    (shortest tie mantissa exponent).value ≠ 0 := by
  unfold shortest
  dsimp only
  split
  · rename_i d hfound
    obtain ⟨n, -, hpicked⟩ := List.exists_of_findSome?_eq_some hfound
    obtain ⟨v, hv, rfl⟩ := Option.map_eq_some_iff.1 hpicked
    exact Scientific.strip_ne_zero 20 (Neighbourhood.pick?_ne_zero (Neighbourhood.low_pos h _ _) hv)
  · exact h

end Shortest

/-! ### Texts -/

/-- A text with a minus in front of it if the number is negative. -/
def signed (negative : Bool) (cs : List Char) : List Char := if negative then '-' :: cs else cs

theorem intDigits_eq (n : Int) : intDigits n = signed (decide (n < 0)) (digits n.natAbs) := by
  by_cases h : n < 0 <;> simp [intDigits, signed, h]

/-- The texts that numbers can have, by their parts. -/
inductive Written : Binary64.Parts → List Char → Prop
  | nan : Written .nan "NaN".toList
  | infinite (negative : Bool) : Written (.infinite negative) (signed negative "inf".toList)
  | zero (negative : Bool) (exponent : Int) :
      Written (.finite negative 0 exponent) (signed negative ['0'])
  | finite (negative : Bool) {mantissa : Nat} (exponent : Int) {cs : List Char} : mantissa ≠ 0 →
      (∀ c ∈ cs, isDigit c = true ∨ c = '.') → (∃ c ∈ cs, isDigit c = true ∧ c ≠ '0') →
      Written (.finite negative mantissa exponent) (signed negative cs)

section Texts

variable {ds : List Char} {c : Char}

/-- The digits in positional notation, with a point if there is a fraction. -/
def pointed (parts : List Char × List Char) : List Char :=
  if parts.2.isEmpty then parts.1 else parts.1 ++ '.' :: parts.2

theorem mem_of_mem_pointed {parts : List Char × List Char} (h : c ∈ pointed parts) :
    (c ∈ parts.1 ∨ c ∈ parts.2) ∨ c = '.' := by
  unfold pointed at h
  split at h
  · exact .inl (.inl h)
  · rw [List.mem_append, List.mem_cons, or_left_comm] at h
    exact h.symm

theorem mem_pointed {parts : List Char × List Char} (h : c ∈ parts.1 ∨ c ∈ parts.2) :
    c ∈ pointed parts := by
  unfold pointed
  split
  · rename_i hempty
    rw [List.isEmpty_iff.1 hempty] at h
    exact h.resolve_right List.not_mem_nil
  · rw [List.mem_append, List.mem_cons]
    exact h.imp_right .inr

/-- Positional notation adds zeros only. -/
theorem mem_of_mem_positional {places : Int}
    (h : c ∈ (positional ds places).1 ∨ c ∈ (positional ds places).2) : c ∈ ds ∨ c = '0' := by
  unfold positional at h
  split at h
  · simp only [List.mem_singleton, List.mem_append, List.mem_replicate] at h
    rcases h with hzero | ⟨-, hzero⟩ | hmem
    · exact .inr hzero
    · exact .inr hzero
    · exact .inl hmem
  · simp only [List.mem_append, List.mem_replicate] at h
    rcases h with (hmem | ⟨-, hzero⟩) | hmem
    · exact .inl (List.mem_of_mem_take hmem)
    · exact .inr hzero
    · exact .inl (List.mem_of_mem_drop hmem)

/-- Positional notation drops no digit. -/
theorem mem_positional (places : Int) (h : c ∈ ds) :
    c ∈ (positional ds places).1 ∨ c ∈ (positional ds places).2 := by
  unfold positional
  split
  · exact .inr (List.mem_append_right _ h)
  · rw [← List.take_append_drop places.toNat ds, List.mem_append] at h
    exact h.imp_left (List.mem_append_left _)

/-- What a number is written as. -/
theorem written_plain (x : Float) : Written (Binary64.parts x) (plain x) := by
  unfold plain
  cases Binary64.parts x with
  | nan => exact .nan
  | infinite negative => exact .infinite negative
  | finite negative mantissa exponent =>
    cases mantissa with
    | zero => exact .zero negative exponent
    | succ mantissa =>
      have hvalue := shortest_ne_zero .up (Nat.succ_ne_zero mantissa) exponent
      obtain ⟨c, hc, hne⟩ := exists_digit hvalue
      refine .finite negative exponent (Nat.succ_ne_zero mantissa) ?_
        ⟨c, mem_pointed (mem_positional _ hc), isDigit_of_mem_digits c hc, hne⟩
      intro c hc
      rcases mem_of_mem_pointed hc with hc | hpoint
      · rcases mem_of_mem_positional hc with hdigit | rfl
        · exact .inl (isDigit_of_mem_digits c hdigit)
        · exact .inl rfl
      · exact .inr hpoint

end Texts

end HandlerScript.Decimal
