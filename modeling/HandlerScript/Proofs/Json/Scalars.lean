import HandlerScript.Proofs.Json.Numbers
import HandlerScript.Proofs.Json.Stepwise
import HandlerScript.Proofs.Json.Strings
import HandlerScript.Scalar.Json

/-! Scalars read back from their JSON texts.

    Truth values, integers and strings are read back as they were. A number is written in the shortest
    decimal that is closest to it, but reading computes that decimal in steps, and the steps may lead to a
    neighbour. They lead back if the digits have at most fifty-three bits and the power of ten is at most
    the twenty-second, since both are numbers then and only one rounding is left. What is no number is
    written as `null`, which is no scalar. A text in digits is inferred to be infinite if it is too great. -/

namespace HandlerScript

namespace Json

open Binary64 (RoundsTo Denotes Fits)
open Decimal (digits isDigit Neighbourhood Scientific shortest)

/-- The decimal as which a positive number is written: the shortest one, but a whole number without an
    exponent gets a zero behind the point. -/
def writtenDecimal (mantissa : Nat) (exponent : Int) : Scientific :=
  let d := shortest .even mantissa exponent
  if 0 ≤ d.exponent ∧ (digits d.value).length + d.exponent ≤ 16 then
    ⟨d.value * 10 ^ (d.exponent.toNat + 1), -1⟩
  else d

/-- What a number comes to when its written decimal is computed in steps. -/
def ComesBackAs (mantissa : Nat) (exponent : Int) (r : ℚ) : Prop :=
  Stepwise (writtenDecimal mantissa exponent).value (writtenDecimal mantissa exponent).exponent r

/-! ### The written decimal -/

section Written

variable {mantissa : Nat} {exponent : Int}

theorem toRat_writtenDecimal (mantissa : Nat) (exponent : Int) :
    (writtenDecimal mantissa exponent).toRat = (shortest .even mantissa exponent).toRat := by
  unfold writtenDecimal
  dsimp only
  split
  · rename_i hwhole
    generalize shortest .even mantissa exponent = d at *
    obtain ⟨value, e⟩ := d
    lift e to ℕ using hwhole.1
    simp only [Scientific.toRat, Int.toNat_natCast, zpow_natCast, zpow_neg, zpow_one]
    push_cast
    field_simp
    ring
  · rfl

theorem writtenDecimal_value_le (hm : mantissa ≠ 0) (hfits : Fits mantissa exponent) :
    (writtenDecimal mantissa exponent).value ≠ 0 ∧ (writtenDecimal mantissa exponent).value ≤ 10 ^ 17 := by
  have hpos := Decimal.shortest_ne_zero .even hm exponent
  have hle := Decimal.value_shortest_le .even hm hfits
  unfold writtenDecimal
  dsimp only
  split
  · rename_i hwhole
    generalize shortest .even mantissa exponent = d at *
    refine ⟨Nat.mul_ne_zero hpos (Nat.pow_pos (by decide)).ne', ?_⟩
    calc d.value * 10 ^ (d.exponent.toNat + 1)
        ≤ 10 ^ (digits d.value).length * 10 ^ (d.exponent.toNat + 1) :=
          Nat.mul_le_mul_right _ (Decimal.lt_pow_length_digits d.value).le
      _ = 10 ^ ((digits d.value).length + (d.exponent.toNat + 1)) := (Nat.pow_add _ _ _).symm
      _ ≤ 10 ^ 17 := Nat.pow_le_pow_right (by decide) (by omega)
  · exact ⟨hpos, hle⟩

/-- No number is written as a greater decimal than the greatest. -/
theorem toRat_shortest_le (hm : mantissa ≠ 0) (hfits : Fits mantissa exponent) :
    (shortest .even mantissa exponent).toRat ≤ greatest := by
  by_cases hlast : mantissa = 2 ^ 53 - 1 ∧ exponent = 971
  · obtain ⟨rfl, rfl⟩ := hlast
    have hshortest : shortest .even (2 ^ 53 - 1) 971 = ⟨17976931348623157, 292⟩ := by decide +kernel
    have hvalue : ((17976931348623157 : ℕ) * 10 ^ (292 : ℤ) : ℚ) = greatest := by
      rw [greatest, Nat.cast_mul, Nat.cast_pow]
      rfl
    rw [hshortest, Scientific.toRat]
    exact hvalue.le
  · -- the neighbourhoods of all others end below
    have hplace : (0 : ℚ) < 2 ^ (exponent - 2) := zpow_pos two_pos _
    have hupper := (Decimal.contains_shortest .even hm hfits).bounds.2.1
    rw [div_le_iff₀ hplace] at hupper
    have hlt := hfits.mantissa_lt
    have hbound : ((4 * mantissa + 2 : ℕ) * 2 ^ (exponent - 2) : ℚ) ≤
        (2 ^ 54 - 3 : ℕ) * 2 ^ (970 : ℤ) := by
      rcases hfits.exponent_le.lt_or_eq with hless | rfl
      · have hdigits : ((4 * mantissa + 2 : ℕ) : ℚ) ≤ (2 ^ 54 - 3 : ℕ) * 2 ^ (2 : ℤ) := by
          have : 4 * mantissa + 2 ≤ (2 ^ 54 - 3) * 2 ^ 2 := by omega
          exact_mod_cast this
        have hpower : (2 : ℚ) ^ (exponent - 2) ≤ 2 ^ (968 : ℤ) :=
          zpow_le_zpow_right₀ one_le_two (by omega)
        refine (mul_le_mul hdigits hpower hplace.le (by positivity)).trans_eq ?_
        rw [mul_assoc, ← zpow_add₀ two_ne_zero]
        rfl
      · have hdigits : ((4 * mantissa + 2 : ℕ) : ℚ) ≤ (2 ^ 54 - 3 : ℕ) * 2 ^ (1 : ℤ) := by
          have : 4 * mantissa + 2 ≤ (2 ^ 54 - 3) * 2 ^ 1 := by omega
          exact_mod_cast this
        refine (mul_le_mul_of_nonneg_right hdigits hplace.le).trans_eq ?_
        rw [mul_assoc, ← zpow_add₀ two_ne_zero]
        rfl
    have hgreatest : (2 ^ 54 - 3) * 2 ^ 970 ≤ greatest := by decide +kernel
    have hgreatest' : ((2 ^ 54 - 3 : ℕ) * 2 ^ (970 : ℤ) : ℚ) ≤ greatest := by exact_mod_cast hgreatest
    exact hupper.trans (hbound.trans hgreatest')

theorem exponent_shortest (hm : mantissa ≠ 0) (hfits : Fits mantissa exponent) :
    -458 ≤ (shortest .even mantissa exponent).exponent ∧
      (shortest .even mantissa exponent).exponent ≤ 308 := by
  have hle := Decimal.value_shortest_le .even hm hfits
  have hgreatest := toRat_shortest_le hm hfits
  have hcontains := Decimal.contains_shortest .even hm hfits
  generalize shortest .even mantissa exponent = d at *
  obtain ⟨hpos, hleast⟩ := Decimal.not_tiny_of_contains hm hfits hcontains
  have hlog : d.value.log2 < 57 := (Nat.log2_lt hpos).2 (hle.trans_lt (by decide))
  refine ⟨by omega, Int.lt_add_one_iff.1 ?_⟩
  have hone : (1 : ℚ) ≤ d.value := by exact_mod_cast Nat.one_le_iff_ne_zero.2 hpos
  have hbelow : greatest < 10 ^ (308 + 1) := by decide +kernel
  have hbelow' : (greatest : ℚ) < 10 ^ (308 + 1 : ℤ) := by exact_mod_cast hbelow
  refine (zpow_lt_zpow_iff_right₀ (show (1 : ℚ) < 10 by norm_num)).1 (lt_of_le_of_lt ?_ hbelow')
  exact (le_mul_of_one_le_left (zpow_pos (by norm_num) _).le hone).trans hgreatest

/-- The written decimal is read as what it comes to in steps. -/
theorem exists_comesBackAs (hm : mantissa ≠ 0) (hfits : Fits mantissa exponent) :
    ∃ x r, Denotes x r ∧ ComesBackAs mantissa exponent r ∧ ∀ negative rest,
      ofDecimal negative (writtenDecimal mantissa exponent).value
        (writtenDecimal mantissa exponent).exponent rest =
          .ok (.float (if negative then -x else x), rest) := by
  obtain ⟨hpos, hle⟩ := writtenDecimal_value_le hm hfits
  have hhigh := toRat_shortest_le hm hfits
  rw [← toRat_writtenDecimal] at hhigh
  have hlow : -616 ≤ (writtenDecimal mantissa exponent).exponent := by
    have hexponent := (exponent_shortest hm hfits).1
    unfold writtenDecimal
    dsimp only
    split
    · exact (by decide : (-616 : Int) ≤ -1)
    · omega
  exact exists_ofDecimal (Nat.pos_of_ne_zero hpos) hle hlow hhigh

/-- How a finite number other than zero is written. -/
theorem floatChars?_finite {x : Float} {negative : Bool}
    (h : Binary64.parts x = .finite negative mantissa exponent) (hm : mantissa ≠ 0) :
    let d := shortest .even mantissa exponent
    let places : Int := (digits d.value).length + d.exponent
    floatChars? x = if -5 < places ∧ places ≤ 16 then
        some (Decimal.signed negative (placed (digits d.value) places))
      else some (Decimal.signed negative (scientific (digits d.value) ++ exponentText (places - 1))) := by
  intro d places
  have hassoc : scientific (digits d.value) ++ exponentText (places - 1) =
      scientific (digits d.value) ++ (if places - 1 < 0 then ['e'] else ['e', '+']) ++
        Decimal.intDigits (places - 1) := (List.append_assoc _ _ _).symm
  rw [hassoc]
  cases mantissa with
  | zero => exact absurd rfl hm
  | succ mantissa =>
    rw [floatChars?, h]
    rfl

/-- What a written number is read as. -/
theorem number_written {x : Float} {negative : Bool}
    (h : Binary64.parts x = .finite negative mantissa exponent) (hm : mantissa ≠ 0)
    (hfits : Fits mantissa exponent) : ∃ cs : List Char, floatChars? x = some (Decimal.signed negative cs) ∧
      ∀ negative, number negative cs = ofDecimal negative (writtenDecimal mantissa exponent).value
        (writtenDecimal mantissa exponent).exponent [] := by
  have hchars := floatChars?_finite h hm
  have hpos := Decimal.shortest_ne_zero .even hm exponent
  have hle := Decimal.value_shortest_le .even hm hfits
  obtain ⟨hlow, hhigh⟩ := exponent_shortest hm hfits
  unfold writtenDecimal
  generalize shortest .even mantissa exponent = d at *
  dsimp only at hchars ⊢
  have hlength := List.length_pos_iff.2 (Decimal.digits_ne_nil d.value)
  have hlength' := Decimal.length_digits_le (k := 18) (hle.trans_lt (by decide)) (by decide)
  have hfits' : d.value < 10 ^ 19 := hle.trans_lt (by decide)
  by_cases hplaced : -5 < ((digits d.value).length + d.exponent : ℤ) ∧
      ((digits d.value).length + d.exponent : ℤ) ≤ 16
  · rw [if_pos hplaced] at hchars
    refine ⟨_, hchars, fun negative => ?_⟩
    by_cases hwhole : 0 ≤ d.exponent
    · rw [if_pos ⟨hwhole, hplaced.2⟩, number_placed_whole hpos hwhole hplaced.2]
    · rw [if_neg fun h => hwhole h.1, number_placed hpos hfits' (by omega)]
  · rw [if_neg hplaced] at hchars
    refine ⟨_, hchars, fun negative => ?_⟩
    rw [if_neg (by omega), number_scientific hpos hfits' (by omega)]

end Written

/-! ### Reading values -/

section Reading

theorem read_digit {c : Char} (hc : isDigit c = true) (fuel depth : Nat) (rest : List Char) :
    Value.read (fuel + 1) depth (c :: rest) =
      (number false (c :: rest)).map fun r => (.number r.1, r.2) := by
  have hblank : isBlank c = false := by
    rw [Bool.eq_false_iff]
    intro hblank
    simp only [isBlank, Bool.or_eq_true, beq_iff_eq] at hblank
    rcases hblank with ((rfl | rfl) | rfl) | rfl <;> exact absurd hc (by decide)
  have hskip : skipBlanks (c :: rest) = c :: rest := List.dropWhile_cons_of_neg (by rw [hblank]; decide)
  rw [Value.read, hskip]
  split
  case h_9 heq =>
    cases heq
    rw [if_pos hc]
    cases number false (c :: rest) <;> rfl
  case h_1 heq => cases heq
  all_goals
    rename_i heq
    cases heq
    exact absurd hc (by decide)

theorem read_minus (fuel depth : Nat) (rest : List Char) :
    Value.read (fuel + 1) depth ('-' :: rest) =
      (number true rest).map fun r => (.number r.1, r.2) := by
  have hskip : skipBlanks ('-' :: rest) = '-' :: rest := rfl
  rw [Value.read, hskip]
  change (number true rest >>= fun r => pure (Value.number r.1, r.2)) = _
  cases number true rest <;> rfl

theorem read_quoted (fuel depth : Nat) (s : String) :
    Value.read (fuel + 1) depth (quoted s) = .ok (.string s, []) := by
  have hquoted := quoted_append s []
  rw [List.append_nil] at hquoted
  rw [hquoted, Value.read]
  have hskip : skipBlanks ('"' :: (s.toList.flatMap escaped ++ ['"'])) =
      '"' :: (s.toList.flatMap escaped ++ ['"']) := rfl
  rw [hskip]
  change (string (s.toList.flatMap escaped ++ ['"']) >>= fun r => pure (Value.string r.1, r.2)) = _
  rw [string_escaped]
  rfl

theorem digit_of_number {negative : Bool} {cs : List Char} {r : Number × List Char}
    (h : number negative cs = .ok r) : ∃ c rest, cs = c :: rest ∧ isDigit c = true := by
  cases cs with
  | nil => cases h
  | cons c rest =>
    refine ⟨c, rest, rfl, ?_⟩
    by_contra hc
    rw [Bool.not_eq_true] at hc
    rw [number, hc] at h
    cases h

/-- A number with its sign is read as a value. -/
theorem read_signed {negative : Bool} {cs : List Char} {n : Number} (h : number negative cs = .ok (n, []))
    (fuel depth : Nat) :
    Value.read (fuel + 1) depth (Decimal.signed negative cs) = .ok (.number n, []) := by
  cases negative with
  | true =>
    refine (read_minus fuel depth cs).trans ?_
    rw [h]
    rfl
  | false =>
    obtain ⟨c, rest, rfl, hc⟩ := digit_of_number h
    refine (read_digit hc fuel depth rest).trans ?_
    rw [h]
    rfl

end Reading

end Json

namespace Scalar

open Json (ComesBackAs writtenDecimal)

/-- What a number comes to when its written decimal is computed in steps is the number itself. -/
def Survives : Scalar → Prop
  | .float x => ∃ negative mantissa exponent, Binary64.parts x = .finite negative mantissa exponent ∧
      (mantissa ≠ 0 → ComesBackAs mantissa exponent (mantissa * 2 ^ exponent))
  | _ => True

/-- A number is zero, or its written decimal has digits of fifty-three bits and a power of ten that is a
    number. -/
def IsShort : Scalar → Prop
  | .float x => ∃ negative mantissa exponent, Binary64.parts x = .finite negative mantissa exponent ∧
      (mantissa ≠ 0 → (writtenDecimal mantissa exponent).value ≤ 2 ^ 53 ∧
        (writtenDecimal mantissa exponent).exponent.natAbs ≤ 22)
  | _ => True

/-- What is read from the JSON text of a scalar. -/
inductive ReadAs : Scalar → Except ReadError Scalar → Prop
  | same {value : Scalar} (h : ∀ x, value ≠ .float x) : ReadAs value (.ok value)
  | zero {x : Float} {negative : Bool} {exponent : Int}
      (h : Binary64.parts x = .finite negative 0 exponent) : ReadAs (.float x) (.ok (.float x))
  | stepwise {x y : Float} {negative : Bool} {mantissa mantissa' : Nat} {exponent exponent' : Int}
      (h : Binary64.parts x = .finite negative mantissa exponent) (hm : mantissa ≠ 0)
      (h' : Binary64.parts y = .finite negative mantissa' exponent')
      (hback : ComesBackAs mantissa exponent (mantissa' * 2 ^ exponent')) :
      ReadAs (.float x) (.ok (.float y))
  | infinite {x : Float} (h : Binary64.isFinite x = false) : ReadAs (.float x) (.error .noScalar)

theorem readJson_of_read {source : List Char} {value : Json.Value} {s : Scalar}
    (h : Json.Value.read (2 * source.length + 2) Json.depthLimit source = .ok (value, []))
    (hs : ofJson? value = some s) : readJson source = .ok s := by
  simp only [readJson, h, hs]
  rfl

theorem readJson_str (s : String) : readJson (toJson (.str s)).compact = .ok (.str s) :=
  readJson_of_read (Json.read_quoted _ _ s) rfl

/-- An integer is read back, and so is the least one, whose magnitude is no integer. -/
theorem readJson_int (n : Int64) : readJson (toJson (.int n)).compact = .ok (.int n) := by
  have hrange : -(2 ^ 63 : ℤ) ≤ n.toInt ∧ n.toInt < 2 ^ 63 := ⟨n.le_toInt, n.toInt_lt⟩
  have hfits : Decimal.ofDigits (Decimal.digits n.toInt.natAbs) < UInt64.size := by
    rw [Decimal.ofDigits_digits, show UInt64.size = 2 ^ 64 from rfl]
    omega
  have hinteger : Json.ofInteger (decide (n.toInt < 0)) n.toInt.natAbs = .int n.toInt := by
    rw [Json.ofInteger]
    by_cases hneg : n.toInt < 0
    · rw [decide_eq_true hneg, if_neg (by decide), if_pos (by omega)]
      congr 1
      omega
    · rw [decide_eq_false hneg, if_pos (by decide)]
      congr 1
      omega
  have hnumber : Json.number (decide (n.toInt < 0)) (Decimal.digits n.toInt.natAbs) = .ok _ :=
    Json.number_integer (Json.isWhole_digits n.toInt.natAbs) hfits
  rw [Decimal.ofDigits_digits, hinteger] at hnumber
  have hword : ofJson? (.number (.int n.toInt)) = some (.int n) := by
    simp only [ofJson?, Decimal.ofInt?_toInt]
  have htext : (toJson (.int n)).compact = Decimal.signed (decide (n.toInt < 0))
      (Decimal.digits n.toInt.natAbs) := Decimal.intDigits_eq n.toInt
  rw [htext]
  exact readJson_of_read (Json.read_signed hnumber _ _) hword

/-- The JSON text of a number, which is `null` if it has no digits. -/
theorem compact_float (x : Float) :
    (toJson (.float x)).compact = (Json.floatChars? x).getD "null".toList := rfl

/-- What a finite number other than zero is read as. -/
theorem readJson_finite {x : Float} {negative : Bool} {mantissa : Nat} {exponent : Int}
    (h : Binary64.parts x = .finite negative mantissa exponent) (hm : mantissa ≠ 0) :
    ∃ y r, Binary64.Denotes y r ∧ ComesBackAs mantissa exponent r ∧
      readJson (toJson (.float x)).compact = .ok (.float (if negative then -y else y)) := by
  have hfits := (Binary64.of_parts_finite h).1
  obtain ⟨cs, hchars, hnumber⟩ := Json.number_written h hm hfits
  obtain ⟨y, r, hy, hback, hread⟩ := Json.exists_comesBackAs hm hfits
  refine ⟨y, r, hy, hback, ?_⟩
  rw [compact_float, hchars, Option.getD_some]
  exact readJson_of_read (Json.read_signed ((hnumber negative).trans (hread negative [])) _ _) rfl

/-- Zero is read with its sign. -/
theorem readJson_zero {x : Float} {negative : Bool} {exponent : Int}
    (h : Binary64.parts x = .finite negative 0 exponent) :
    readJson (toJson (.float x)).compact = .ok (.float x) := by
  have htext : (toJson (.float x)).compact = Decimal.signed negative "0.0".toList := by
    rw [compact_float, Json.floatChars?, h]
    rfl
  have hexponent : exponent = Binary64.leastExponent :=
    (Binary64.of_parts_finite h).1.filled.resolve_left (by decide)
  have hvalue : Binary64.zero negative = x := by
    rw [← Binary64.compose_parts h, hexponent]
    cases negative <;> rfl
  rw [htext, ← hvalue]
  cases negative <;> rfl

/-- What is no number has no JSON form. -/
theorem readJson_infinite {x : Float} (h : Binary64.isFinite x = false) :
    readJson (toJson (.float x)).compact = .error .noScalar := by
  have hchars : Json.floatChars? x = none := by
    rw [Binary64.isFinite] at h
    rw [Json.floatChars?]
    cases hparts : Binary64.parts x with
    | nan => rfl
    | infinite negative => rfl
    | finite negative mantissa exponent =>
      rw [hparts] at h
      cases h
  rw [compact_float, hchars]
  rfl

/-- Every scalar but a number is read back, and a number is computed in steps. -/
theorem readAs_toJson (value : Scalar) : value.ReadAs (readJson value.toJson.compact) := by
  cases value with
  | bool b => cases b <;> exact .same nofun
  | int n =>
    rw [readJson_int]
    exact .same nofun
  | str s =>
    rw [readJson_str]
    exact .same nofun
  | float x =>
    cases hparts : Binary64.parts x with
    | finite negative mantissa exponent =>
      by_cases hm : mantissa = 0
      · subst hm
        rw [readJson_zero hparts]
        exact .zero hparts
      · obtain ⟨y, r, ⟨m, e, hy, rfl⟩, hback, hread⟩ := readJson_finite hparts hm
        rw [hread]
        refine .stepwise hparts hm ?_ hback
        cases negative with
        | false => exact hy
        | true => exact (Binary64.parts_neg y).trans (congrArg Binary64.Parts.neg hy)
    | _ =>
      have hinfinite : Binary64.isFinite x = false := by rw [Binary64.isFinite, hparts]
      rw [readJson_infinite hinfinite]
      exact .infinite hinfinite

/-- A scalar is read back exactly if the steps lead to it. -/
theorem readJson_eq_iff (value : Scalar) : readJson value.toJson.compact = .ok value ↔ value.Survives := by
  have hread := readAs_toJson value
  constructor
  · intro hsame
    rw [hsame] at hread
    generalize hresult : Except.ok value = result at hread
    cases hread with
    | same h =>
      cases value with
      | float x => exact absurd rfl (h x)
      | _ => trivial
    | zero h => exact ⟨_, _, _, h, fun hm => absurd rfl hm⟩
    | stepwise h hm h' hback =>
      cases hresult
      obtain ⟨-, rfl, rfl⟩ := Binary64.Parts.finite.inj (h.symm.trans h')
      exact ⟨_, _, _, h, fun _ => hback⟩
    | infinite h => cases hresult
  · intro hsurvives
    generalize readJson value.toJson.compact = result at *
    cases hread with
    | same h => rfl
    | zero h => rfl
    | stepwise h hm h' hback =>
      obtain ⟨_, _, _, hparts, hself⟩ := hsurvives
      obtain ⟨rfl, rfl, rfl⟩ := Binary64.Parts.finite.inj (hparts.symm.trans h)
      rw [Binary64.eq_of_parts h h' ((hself hm).unique hback) hm]
    | infinite h =>
      obtain ⟨_, _, _, hparts, -⟩ := hsurvives
      rw [Binary64.isFinite, hparts] at h
      cases h

/-- A short number is read back. -/
theorem IsShort.survives {value : Scalar} (h : value.IsShort) : value.Survives := by
  cases value with
  | float x =>
    obtain ⟨negative, mantissa, exponent, hparts, hshort⟩ := h
    refine ⟨negative, mantissa, exponent, hparts, fun hm => ?_⟩
    have hfits := (Binary64.of_parts_finite hparts).1
    obtain ⟨-, r, -, hback, -⟩ := Json.exists_comesBackAs hm hfits
    have hpos := Nat.pos_of_ne_zero (Json.writtenDecimal_value_le hm hfits).1
    have hround := hback.roundsTo hpos (hshort hm).1 (hshort hm).2
    have hself := Binary64.roundsTo_of_contains hm hfits (Decimal.contains_shortest .even hm hfits)
    rw [← Json.toRat_writtenDecimal] at hself
    rwa [← hround.unique hself]
  | _ => trivial

/-- An inferred scalar is read back unless the steps lead elsewhere or it is infinite, and they do not lead
    elsewhere if it is short. -/
theorem readJson_infer (text : String) :
    (infer text).ReadAs (readJson (infer text).toJson.compact) ∧
      (readJson (infer text).toJson.compact = .ok (infer text) ↔ (infer text).Survives) ∧
      ((infer text).IsShort → (infer text).Survives) :=
  ⟨readAs_toJson _, readJson_eq_iff _, IsShort.survives⟩

theorem readJson_infer_tenth :
    (infer "0.1").IsShort ∧ readJson (infer "0.1").toJson.compact = .ok (infer "0.1") := by
  have hvalue : infer "0.1" = .float (Binary64.compose false 7205759403792794 (-56)) := by rfl
  have hwritten : writtenDecimal 7205759403792794 (-56) = ⟨1, -1⟩ := by decide +kernel
  have hshort : (infer "0.1").IsShort := by
    rw [hvalue]
    refine ⟨_, _, _, Binary64.parts_compose ⟨by decide, by decide, by decide, .inl (by decide)⟩, ?_⟩
    rw [hwritten]
    exact fun _ => ⟨by decide, by decide⟩
  obtain ⟨-, hsame, hsurvives⟩ := readJson_infer "0.1"
  exact ⟨hshort, hsame.2 (hsurvives hshort)⟩

/-- A small number is read as its neighbour, and one that is too great is not read. -/
theorem readJson_infer_misses :
    readJson (infer "1e-25").toJson.compact ≠ .ok (infer "1e-25") ∧
      readJson (infer "1e999").toJson.compact = .error .noScalar := by
  refine ⟨fun h => ?_, by rfl⟩
  have hread : (readJson (infer "1e-25").toJson.compact).toOption.map text =
      some "0.00000000000000000000000009999999999999999" := by decide +kernel
  have hinferred : (infer "1e-25").text = "0.0000000000000000000000001" := by decide +kernel
  rw [h] at hread
  exact absurd (hinferred.symm.trans (Option.some.inj hread)) (by decide)

end Scalar

end HandlerScript
