import HandlerScript.Json.Token
import HandlerScript.Proofs.Number.ReadBack

/-! Numbers of JSON, read section by section.

    A number is read from its whole digits, a fraction and an exponent. As long as the digits fit into
    sixty-four bits none of them is dropped, so the significand is the natural that all of them spell, and
    the power of ten is the exponent less the digits behind the point. -/

namespace HandlerScript.Json

open Decimal (isDigit ofDigits digits intDigits)
open Text (Stops stops_nil stops_cons span_eq_iff)

/-! ### Digits -/

section Digits

variable {c : Char} {cs : List Char}

theorem ofDigits_cons (c : Char) (cs : List Char) :
    ofDigits (c :: cs) = (c.toNat - 48) * 10 ^ cs.length + ofDigits cs := by
  have hone : ofDigits [c] = c.toNat - 48 := by simp [ofDigits]
  rw [← List.singleton_append, Decimal.ofDigits_append, hone]

/-- Digits behind a number that was read before. -/
theorem shifted_cons (n : Nat) (c : Char) (cs : List Char) :
    n * 10 ^ (c :: cs).length + ofDigits (c :: cs) =
      (10 * n + (c.toNat - 48)) * 10 ^ cs.length + ofDigits cs := by
  rw [ofDigits_cons, List.length_cons]
  ring

theorem le_shifted (n : Nat) (cs : List Char) : n ≤ n * 10 ^ cs.length + ofDigits cs :=
  (Nat.le_mul_of_pos_right n (Nat.pow_pos (by decide))).trans (Nat.le_add_right _ _)

/-- Digits are all taken if the number they spell fits. -/
theorem significand_eq {s : Nat} (h : s * 10 ^ cs.length + ofDigits cs < UInt64.size) :
    significand s cs = (s * 10 ^ cs.length + ofDigits cs, cs.length, []) := by
  induction cs generalizing s with
  | nil => simp [significand, ofDigits]
  | cons c cs ih =>
    rw [shifted_cons] at h ⊢
    have hfits := (le_shifted (10 * s + (c.toNat - 48)) cs).trans_lt h
    rw [significand]
    dsimp only
    rw [if_pos hfits, ih h]
    rfl

theorem significand_zero (h : ofDigits cs < UInt64.size) :
    significand 0 cs = (ofDigits cs, cs.length, []) := by
  have hread : significand 0 cs = (0 * 10 ^ cs.length + ofDigits cs, cs.length, []) :=
    significand_eq (by rwa [Nat.zero_mul, Nat.zero_add])
  rwa [Nat.zero_mul, Nat.zero_add] at hread

theorem exponentDigits_eq {e : Nat} (hcs : ∀ c ∈ cs, isDigit c = true)
    (h : e * 10 ^ cs.length + ofDigits cs < 0x80000000) :
    exponentDigits e cs = (some (e * 10 ^ cs.length + ofDigits cs), []) := by
  induction cs generalizing e with
  | nil => simp [exponentDigits, ofDigits]
  | cons c cs ih =>
    rw [shifted_cons] at h ⊢
    have hfits := (le_shifted (10 * e + (c.toNat - 48)) cs).trans_lt h
    rw [exponentDigits, if_pos (hcs c List.mem_cons_self)]
    dsimp only
    rw [if_pos hfits, ih (fun d hd => hcs d (List.mem_cons_of_mem c hd)) h]

end Digits

/-! ### Sections -/

/-- The exponent of a number as it is written, with a sign always. -/
def exponentText (power : Int) : List Char :=
  (if power < 0 then ['e'] else ['e', '+']) ++ intDigits power

/-- What stands behind the digits of a number: nothing, or an exponent. -/
inductive Tail : Int → List Char → Prop
  | absent : Tail 0 []
  | present {power : Int} (h : power.natAbs < 0x80000000) : Tail power (exponentText power)

/-- Digits that a number may begin with: a zero only if it is alone. -/
structure IsWhole (cs : List Char) : Prop where
  digits : ∀ c ∈ cs, isDigit c = true
  nonempty : cs ≠ []
  zero : cs.head? = some '0' → cs = ['0']

section Sections

variable {negative : Bool} {s : Nat} {e power : Int} {whole frac tail rest : List Char}

theorem exponent_eq (h : power.natAbs < 0x80000000) :
    exponent negative s e ((exponentText power).drop 1) = ofDecimal negative s (e + power) [] := by
  have hsign : Decimal.sign ((exponentText power).drop 1) =
      (decide (power < 0), digits power.natAbs) := by
    rw [exponentText, intDigits]
    by_cases hneg : power < 0
    · rw [if_pos hneg, if_pos hneg, decide_eq_true hneg]
      rfl
    · rw [if_neg hneg, if_neg hneg, decide_eq_false hneg]
      rfl
  have hvalue := Decimal.ofDigits_digits power.natAbs
  have hdigits : ∀ c ∈ digits power.natAbs, isDigit c = true := fun _ => Decimal.isDigit_of_mem_digits _
  obtain ⟨c, cs, hcs⟩ := List.exists_cons_of_ne_nil (Decimal.digits_ne_nil power.natAbs)
  rw [hcs] at hsign hvalue hdigits
  rw [ofDigits_cons] at hvalue
  have hread := exponentDigits_eq (e := c.toNat - 48) (fun d hd => hdigits d (List.mem_cons_of_mem c hd))
    (by rwa [hvalue])
  simp only [exponent, hsign, hdigits c List.mem_cons_self, hread, hvalue, if_true]
  congr 1
  by_cases hneg : power < 0
  · rw [decide_eq_true hneg, if_pos rfl]
    omega
  · rw [decide_eq_false hneg, if_neg Bool.false_ne_true]
    omega

theorem exponentText_eq (power : Int) : exponentText power = 'e' :: (exponentText power).drop 1 := by
  rw [exponentText]
  split <;> rfl

theorem Tail.stops (h : Tail power tail) : Stops isDigit tail := by
  cases h with
  | absent => exact stops_nil
  | present =>
    rw [exponentText_eq]
    exact stops_cons rfl

theorem afterDigits_tail (h : Tail power tail) :
    afterDigits negative s e tail = ofDecimal negative s (e + power) [] := by
  cases h with
  | absent => rw [afterDigits, Int.add_zero]
  | present hpower =>
    rw [exponentText_eq, afterDigits, if_pos (.inl rfl), exponent_eq hpower]

/-- Behind a point: digits, and what follows them. -/
theorem fraction_eq (hfrac : ∀ c ∈ frac, isDigit c = true) (hne : frac ≠ [])
    (hfits : s * 10 ^ frac.length + ofDigits frac < UInt64.size) (h : Tail power tail) :
    fraction negative s e (frac ++ tail) =
      ofDecimal negative (s * 10 ^ frac.length + ofDigits frac) (e - frac.length + power) [] := by
  have hspan : (frac ++ tail).span isDigit = (frac, tail) := span_eq_iff.2 ⟨rfl, hfrac, h.stops⟩
  simp only [fraction, hspan, List.isEmpty_eq_false_iff.2 hne, significand_eq hfits,
    afterDigits_tail h, Bool.false_eq_true, if_false]

/-- The whole digits of a number, and what is left behind them. -/
theorem whole_eq {c : Char} {cs : List Char} (hwhole : IsWhole whole) (hrest : Stops isDigit rest)
    (h : c :: cs = whole ++ rest) : isDigit c = true ∧
      (if c = '0' then (['0'], cs) else (c :: cs).span isDigit) = (whole, rest) := by
  obtain ⟨d, ds, rfl⟩ := List.exists_cons_of_ne_nil hwhole.nonempty
  obtain ⟨rfl, rfl⟩ := List.cons.inj h
  refine ⟨hwhole.digits c List.mem_cons_self, ?_⟩
  split
  · rename_i hzero
    subst hzero
    obtain ⟨-, rfl⟩ := List.cons.inj (hwhole.zero rfl)
    rfl
  · exact span_eq_iff.2 ⟨rfl, hwhole.digits, hrest⟩

/-- A number with a point. -/
theorem number_point (hwhole : IsWhole whole) (hfrac : ∀ c ∈ frac, isDigit c = true) (hne : frac ≠ [])
    (hfits : ofDigits (whole ++ frac) < UInt64.size) (h : Tail power tail) :
    number negative (whole ++ '.' :: (frac ++ tail)) =
      ofDecimal negative (ofDigits (whole ++ frac)) (power - frac.length) [] := by
  rw [Decimal.ofDigits_append] at hfits ⊢
  obtain ⟨c, cs, hcs⟩ := List.exists_cons_of_ne_nil
    (List.append_ne_nil_of_left_ne_nil hwhole.nonempty ('.' :: (frac ++ tail)))
  obtain ⟨hdigit, hcut⟩ := whole_eq hwhole (stops_cons rfl) hcs.symm
  have hsmall := (le_shifted (ofDigits whole) frac).trans_lt hfits
  rw [hcs]
  simp only [number, hdigit, hcut, significand_zero hsmall, Bool.not_true, Bool.false_eq_true, if_false]
  rw [fraction_eq hfrac hne hfits h, List.length_nil]
  congr 1
  omega

/-- A number with an exponent and no point. -/
theorem number_exponent (hwhole : IsWhole whole) (hfits : ofDigits whole < UInt64.size)
    (h : power.natAbs < 0x80000000) : number negative (whole ++ exponentText power) =
      ofDecimal negative (ofDigits whole) power [] := by
  obtain ⟨c, cs, hcs⟩ := List.exists_cons_of_ne_nil
    (List.append_ne_nil_of_left_ne_nil hwhole.nonempty (exponentText power))
  obtain ⟨hdigit, hcut⟩ := whole_eq hwhole (Tail.present h).stops hcs.symm
  rw [exponentText_eq] at hcut
  rw [hcs]
  simp only [number, hdigit, hcut, significand_zero hfits, Bool.not_true, Bool.false_eq_true, if_false]
  refine (if_pos (.inl rfl)).trans ?_
  rw [exponent_eq h, List.length_nil, Nat.cast_zero, Int.zero_add]

/-- An integer. -/
theorem number_integer (hwhole : IsWhole whole) (hfits : ofDigits whole < UInt64.size) :
    number negative whole = .ok (ofInteger negative (ofDigits whole), []) := by
  obtain ⟨c, cs, hcs⟩ := List.exists_cons_of_ne_nil hwhole.nonempty
  have hnil : c :: cs = whole ++ [] := by rw [hcs, List.append_nil]
  obtain ⟨hdigit, hcut⟩ := whole_eq hwhole stops_nil hnil
  rw [hcs]
  simp only [number, hdigit, hcut, significand_zero hfits, Bool.not_true, Bool.false_eq_true, if_false]
  rw [← hcs]
  rfl

/-- The digits of a natural may begin a number. -/
theorem isWhole_digits (n : Nat) : IsWhole (digits n) where
  digits := fun _ => Decimal.isDigit_of_mem_digits _
  nonempty := Decimal.digits_ne_nil n
  zero := by
    induction n using Decimal.digits.induct with
    | case1 n hn =>
      rw [digits, if_pos hn]
      intro hzero
      exact congrArg (fun c => [c]) (Option.some.inj hzero)
    | case2 n hn ih =>
      rw [digits, if_neg hn, List.head?_append_of_ne_nil _ (Decimal.digits_ne_nil _)]
      intro hzero
      have hsmall := Decimal.ofDigits_digits (n / 10)
      rw [ih hzero, show ofDigits ['0'] = 0 from rfl] at hsmall
      omega

end Sections

/-! ### Written numbers -/

section Written

variable {value : Nat} {e : Int} {negative : Bool}

theorem head?_digits_ne (h : value ≠ 0) : (digits value).head? ≠ some '0' := by
  intro hzero
  have hvalue := Decimal.ofDigits_digits value
  rw [(isWhole_digits value).zero hzero] at hvalue
  exact h hvalue.symm

/-- Digits with a point among them, and at least one behind it. -/
def placed (ds : List Char) (places : Int) : List Char :=
  (Decimal.positional ds places).1 ++
    '.' :: (if (Decimal.positional ds places).2.isEmpty then ['0'] else (Decimal.positional ds places).2)

theorem isWhole_positional (h : value ≠ 0) (places : Int) :
    IsWhole (Decimal.positional (digits value) places).1 := by
  have hdigits : ∀ c ∈ (Decimal.positional (digits value) places).1, isDigit c = true := fun c hc =>
    (Decimal.mem_of_mem_positional (.inl hc)).elim (Decimal.isDigit_of_mem_digits c) fun hzero => hzero ▸ rfl
  by_cases hbefore : places ≤ 0
  · have hparts : (Decimal.positional (digits value) places).1 = ['0'] := by
      rw [Decimal.positional, if_pos hbefore]
    rw [hparts] at hdigits ⊢
    exact ⟨hdigits, List.cons_ne_nil _ _, fun _ => rfl⟩
  · obtain ⟨c, cs, hcs⟩ := List.exists_cons_of_ne_nil (Decimal.digits_ne_nil value)
    obtain ⟨n, hn⟩ : ∃ n, places.toNat = n + 1 := ⟨places.toNat - 1, by omega⟩
    have hparts : (Decimal.positional (digits value) places).1 =
        c :: (cs.take n ++ List.replicate (n + 1 - (digits value).length) '0') := by
      rw [Decimal.positional, if_neg hbefore]
      dsimp only
      rw [hn, hcs, List.take_succ_cons, List.cons_append]
    have hhead := head?_digits_ne h
    rw [hparts] at hdigits ⊢
    rw [hcs] at hhead
    exact ⟨hdigits, List.cons_ne_nil _ _, fun hzero => absurd hzero hhead⟩

/-- Digits in positional notation are the significand and the power of ten that they were made from, with
    a zero behind the point if there is nothing else. -/
theorem number_placed (hvalue : value ≠ 0) (hfits : value < 10 ^ 19) (hneg : e < 0) :
    number negative (placed (digits value) ((digits value).length + e)) =
      ofDecimal negative value e [] := by
  have hwhole := isWhole_positional hvalue ((digits value).length + e)
  have hcases := Decimal.positional_cases (Decimal.digits_ne_nil value) e
  have hmem : ∀ c ∈ (Decimal.positional (digits value) ((digits value).length + e)).2,
      isDigit c = true := fun c hc =>
    (Decimal.mem_of_mem_positional (.inr hc)).elim (Decimal.isDigit_of_mem_digits c) fun hzero => hzero ▸ rfl
  rw [placed]
  generalize Decimal.positional (digits value) ((digits value).length + e) = parts at *
  obtain ⟨hlength, k, hall⟩ := hcases.resolve_right fun h => by omega
  have hne : parts.2 ≠ [] := by
    intro hnil
    rw [hnil, List.length_nil] at hlength
    omega
  have hspelled : ofDigits (parts.1 ++ parts.2) = value := by
    rw [hall, Decimal.ofDigits_append, Decimal.ofDigits_zeros, Nat.zero_mul, Nat.zero_add,
      Decimal.ofDigits_digits]
  rw [if_neg (by simpa using hne)]
  calc number negative (parts.1 ++ '.' :: parts.2)
      = number negative (parts.1 ++ '.' :: (parts.2 ++ [])) := by rw [List.append_nil]
    _ = ofDecimal negative (ofDigits (parts.1 ++ parts.2)) (0 - (parts.2.length : ℕ)) [] :=
        number_point hwhole hmem hne (by rw [hspelled]; exact hfits.trans_le (by decide)) .absent
    _ = ofDecimal negative value e [] := by rw [hspelled, hlength, Int.zero_sub, Int.neg_neg]

/-- A whole number gets a zero behind the point. -/
theorem number_placed_whole (hvalue : value ≠ 0) (hnonneg : 0 ≤ e)
    (hplaces : (digits value).length + e ≤ 16) :
    number negative (placed (digits value) ((digits value).length + e)) =
      ofDecimal negative (value * 10 ^ (e.toNat + 1)) (-1) [] := by
  have hwhole := isWhole_positional hvalue ((digits value).length + e)
  have hlength := List.length_pos_iff.2 (Decimal.digits_ne_nil value)
  have hparts : Decimal.positional (digits value) ((digits value).length + e) =
      (digits value ++ List.replicate e.toNat '0', []) := by
    have hzeros : ((digits value).length + e).toNat - (digits value).length = e.toNat := by omega
    rw [Decimal.positional, if_neg (by omega)]
    dsimp only
    rw [hzeros, List.take_of_length_le (by omega), List.drop_of_length_le (by omega)]
  have hspelled : ofDigits (digits value ++ List.replicate e.toNat '0' ++ ['0']) =
      value * 10 ^ (e.toNat + 1) := by
    rw [List.append_assoc, ← List.replicate_succ', Decimal.ofDigits_append, Decimal.ofDigits_digits,
      Decimal.ofDigits_zeros, List.length_replicate, Nat.add_zero]
  have hfits : value * 10 ^ (e.toNat + 1) < UInt64.size := by
    calc value * 10 ^ (e.toNat + 1) < 10 ^ (digits value).length * 10 ^ (e.toNat + 1) :=
          Nat.mul_lt_mul_of_pos_right (Decimal.lt_pow_length_digits value) (Nat.pow_pos (by decide))
      _ = 10 ^ ((digits value).length + (e.toNat + 1)) := (Nat.pow_add _ _ _).symm
      _ ≤ 10 ^ 17 := Nat.pow_le_pow_right (by decide) (by omega)
      _ ≤ UInt64.size := by decide
  rw [hparts] at hwhole
  have hzero : ∀ c ∈ ['0'], isDigit c = true := fun c hc => List.mem_singleton.1 hc ▸ rfl
  rw [placed, hparts]
  calc number negative (digits value ++ List.replicate e.toNat '0' ++ '.' :: (['0'] ++ []))
      = ofDecimal negative (ofDigits (digits value ++ List.replicate e.toNat '0' ++ ['0']))
          (0 - (['0'].length : ℕ)) [] :=
        number_point hwhole hzero (List.cons_ne_nil _ _) (by rwa [hspelled]) .absent
    _ = ofDecimal negative (value * 10 ^ (e.toNat + 1)) (-1) [] := by rw [hspelled]; rfl

/-- Digits in front of an exponent, with a point behind the first of them. -/
def scientific (ds : List Char) : List Char :=
  ds.take 1 ++ (if ds.length = 1 then [] else '.' :: ds.drop 1)

theorem number_scientific (hvalue : value ≠ 0) (hfits : value < 10 ^ 19)
    (he : ((digits value).length + e - 1).natAbs < 0x80000000) :
    number negative (scientific (digits value) ++ exponentText ((digits value).length + e - 1)) =
      ofDecimal negative value e [] := by
  have hdigits : ∀ c ∈ digits value, isDigit c = true := fun _ => Decimal.isDigit_of_mem_digits _
  have hhead := head?_digits_ne hvalue
  have hspelled := Decimal.ofDigits_digits value
  obtain ⟨c, cs, hcs⟩ := List.exists_cons_of_ne_nil (Decimal.digits_ne_nil value)
  have hwhole : IsWhole [c] := by
    rw [hcs] at hdigits hhead
    refine ⟨fun d hd => hdigits d ?_, List.cons_ne_nil _ _, fun hzero => absurd hzero hhead⟩
    exact List.mem_singleton.1 hd ▸ List.mem_cons_self
  rw [hcs] at he hspelled hdigits ⊢
  have hfits' : value < UInt64.size := hfits.trans_le (by decide)
  cases cs with
  | nil =>
    have hpower : (([c].length : ℕ) + e - 1 : ℤ) = e := by
      rw [List.length_singleton]
      omega
    rw [hpower] at he ⊢
    calc number negative (scientific [c] ++ exponentText e)
        = number negative ([c] ++ exponentText e) := rfl
      _ = ofDecimal negative (ofDigits [c]) e [] := number_exponent hwhole (by rwa [hspelled]) he
      _ = ofDecimal negative value e [] := by rw [hspelled]
  | cons d cs =>
    have hspelled' : ofDigits ([c] ++ d :: cs) = value := hspelled
    have hfrac : ∀ d' ∈ d :: cs, isDigit d' = true := fun d' hd => hdigits d' (List.mem_cons_of_mem c hd)
    generalize hpower : (((c :: d :: cs).length : ℕ) + e - 1 : ℤ) = power at he ⊢
    have hexponent : power - ((d :: cs).length : ℕ) = e := by
      rw [← hpower, List.length_cons]
      omega
    calc number negative (scientific (c :: d :: cs) ++ exponentText power)
        = number negative ([c] ++ '.' :: (d :: cs ++ exponentText power)) := rfl
      _ = ofDecimal negative (ofDigits ([c] ++ d :: cs)) (power - ((d :: cs).length : ℕ)) [] :=
        number_point hwhole hfrac (List.cons_ne_nil d cs) (by rwa [hspelled']) (.present he)
      _ = ofDecimal negative value e [] := by rw [hspelled', hexponent]

end Written

end HandlerScript.Json
