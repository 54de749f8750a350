import HandlerScript.Number.Decimal
import HandlerScript.Proofs.Number.Texts
import HandlerScript.Proofs.Text.Runs
import Mathlib.Tactic.Ring

/-! Numerals and what they are read as.

    A number is read from sections: a sign, digits, a point with digits behind it, an exponent. Each ends
    where the next character can no longer belong to it. So a numeral that was put together from such
    sections is read as the number nearest to it, and whatever is read as a number is such a numeral or
    one of the words. -/

namespace HandlerScript.Decimal

open Text (Stops stops_nil stops_cons span_eq_iff)

/-! ### Digits -/

section Digits

variable {c : Char} {ds : List Char}

/-- Digits behind digits shift them to the left. -/
theorem ofDigits_append (front back : List Char) :
    ofDigits (front ++ back) = ofDigits front * 10 ^ back.length + ofDigits back := by
  have hfrom : ∀ (cs : List Char) (n : Nat), cs.foldl (fun n c => 10 * n + (c.toNat - 48)) n =
      n * 10 ^ cs.length + ofDigits cs := by
    intro cs
    induction cs with
    | nil => intro n; simp [ofDigits]
    | cons c cs ih =>
      intro n
      rw [ofDigits, List.foldl_cons, List.foldl_cons, ih, ih (10 * 0 + _), List.length_cons]
      ring
  rw [ofDigits, List.foldl_append, hfrom]
  rfl

theorem ofDigits_zeros (n : Nat) : ofDigits (List.replicate n '0') = 0 := by
  induction n with
  | zero => rfl
  | succ n ih =>
    rw [List.replicate_succ', ofDigits_append, ih]
    rfl

/-- The digits of a natural spell it. -/
theorem ofDigits_digits (n : Nat) : ofDigits (digits n) = n := by
  have hdigit : ∀ d < 10, ofDigits [Char.ofNat (48 + d)] = d := by decide
  induction n using digits.induct with
  | case1 n hn =>
    rw [digits, if_pos hn]
    exact hdigit n hn
  | case2 n hn ih =>
    rw [digits, if_neg hn, ofDigits_append, ih, hdigit _ (Nat.mod_lt n (by decide))]
    exact Nat.div_add_mod' n 10

/-- A natural is below the power of ten that has as many zeros as it has digits. -/
theorem lt_pow_length_digits (n : Nat) : n < 10 ^ (digits n).length := by
  induction n using digits.induct with
  | case1 n hn =>
    rw [digits, if_pos hn]
    exact hn
  | case2 n hn ih =>
    rw [digits, if_neg hn, List.length_append, List.length_singleton, pow_succ]
    omega

theorem length_digits_le {n k : Nat} (h : n < 10 ^ k) (hk : 0 < k) : (digits n).length ≤ k := by
  induction n using digits.induct generalizing k with
  | case1 n hn =>
    rw [digits, if_pos hn]
    exact hk
  | case2 n hn ih =>
    obtain ⟨k, rfl⟩ := Nat.exists_eq_succ_of_ne_zero hk.ne'
    rw [Nat.pow_succ] at h
    have hpos : 0 < k := by
      rw [Nat.pos_iff_ne_zero]
      rintro rfl
      omega
    have hle := ih (k := k) (by omega) hpos
    rw [digits, if_neg hn, List.length_append, List.length_singleton]
    omega

theorem digits_ne_nil (n : Nat) : digits n ≠ [] := by
  rw [digits]
  split
  · exact List.cons_ne_nil _ _
  · exact List.append_ne_nil_of_right_ne_nil _ (List.cons_ne_nil _ _)

end Digits

/-! ### Signs -/

/-- The sign in front of a numeral, if it has one. -/
inductive Sign where
  | absent
  | plus
  | minus
  deriving DecidableEq

namespace Sign

def text : Sign → List Char
  | .absent => []
  | .plus => ['+']
  | .minus => ['-']

def negative : Sign → Bool
  | .minus => true
  | _ => false

/-- Characters that are signs. -/
def isSign (c : Char) : Bool := c == '+' || c == '-'

end Sign

section Signs

variable {cs : List Char}

theorem sign_append (s : Sign) (h : Stops Sign.isSign cs) : sign (s.text ++ cs) = (s.negative, cs) := by
  cases s with
  | plus => rfl
  | minus => rfl
  | absent =>
    rw [Sign.text, List.nil_append]
    fun_cases sign cs with
    | case1 cs => exact absurd (h '-' rfl) (by decide)
    | case2 cs => exact absurd (h '+' rfl) (by decide)
    | case3 => rfl

/-- A text is cut behind its sign. -/
theorem eq_sign (cs : List Char) : ∃ s : Sign, cs = s.text ++ (sign cs).2 ∧ (sign cs).1 = s.negative := by
  fun_cases sign cs with
  | case1 cs => exact ⟨.minus, rfl, rfl⟩
  | case2 cs => exact ⟨.plus, rfl, rfl⟩
  | case3 => exact ⟨.absent, rfl, rfl⟩

end Signs

/-! ### Integers -/

section Integers

variable {cs : List Char} {e : Int}

theorem nat?_eq_some {n : Nat} (h : nat? cs = some n) : cs ≠ [] ∧ ∀ c ∈ cs, isDigit c = true := by
  unfold nat? at h
  split at h
  · rename_i hdigits
    rw [Bool.and_eq_true, Bool.not_eq_true', List.isEmpty_eq_false_iff, List.all_eq_true] at hdigits
    exact hdigits
  · cases h

theorem nat?_eq_some_iff {n : Nat} :
    nat? cs = some n ↔ cs ≠ [] ∧ (∀ c ∈ cs, isDigit c = true) ∧ ofDigits cs = n := by
  constructor
  · intro h
    obtain ⟨hne, hdigits⟩ := nat?_eq_some h
    refine ⟨hne, hdigits, ?_⟩
    simpa [nat?, hne, List.all_eq_true.2 hdigits] using h
  · rintro ⟨hne, hdigits, rfl⟩
    simp [nat?, hne, List.all_eq_true.2 hdigits]

/-- What is read as an integer is digits with a sign. -/
theorem int?_eq_some (h : int? cs = some e) : ∃ (s : Sign) (ds : List Char), cs = s.text ++ ds ∧
    ds ≠ [] ∧ ∀ c ∈ ds, isDigit c = true := by
  obtain ⟨s, hcs, -⟩ := eq_sign cs
  obtain ⟨_, hinteger, -⟩ := Option.map_eq_some_iff.1 h
  obtain ⟨n, hn, -⟩ := Option.bind_eq_some_iff.1 hinteger
  exact ⟨s, _, hcs, nat?_eq_some hn⟩

/-- An exponent is a mark with an integer behind it. -/
theorem exponent?_eq_some (h : exponent? cs = some e) : cs = [] ∨
    ∃ (mark : Char) (rest : List Char), (mark = 'e' ∨ mark = 'E') ∧ cs = mark :: rest ∧
      int? rest = some e := by
  cases cs with
  | nil => exact .inl rfl
  | cons c cs =>
    rw [exponent?] at h
    split at h
    · rename_i hmark
      exact .inr ⟨c, cs, hmark, rfl, h⟩
    · cases h

end Integers

/-! ### Numerals -/

/-- Digits with at most one point among them, without sign or exponent. -/
structure Numeral where
  whole : List Char
  /-- The digits behind the point, if there is one. -/
  fraction? : Option (List Char)
  whole_digits : ∀ c ∈ whole, isDigit c = true
  fraction_digits : ∀ c ∈ fraction?.getD [], isDigit c = true
  nonempty : whole ≠ [] ∨ fraction?.getD [] ≠ []

/-- The characters of a numeral. -/
def isPointed (c : Char) : Bool := isDigit c || c == '.'

theorem isBlank_of_isPointed {c : Char} (h : isPointed c = true) : Text.isBlank c = false := by
  rcases Bool.or_eq_true_iff.1 h with hdigit | hpoint
  · exact (class_of_isDigit hdigit).1
  · cases beq_iff_eq.1 hpoint
    rfl

namespace Numeral

variable (n : Numeral)

/-- Digits are checked by evaluation. -/
def ofParts (whole : List Char) (fraction? : Option (List Char))
    (h : (whole.all isDigit && (fraction?.getD []).all isDigit &&
      !(whole.isEmpty && (fraction?.getD []).isEmpty)) = true) : Numeral where
  whole := whole
  fraction? := fraction?
  whole_digits := by
    simp only [Bool.and_eq_true] at h
    exact List.all_eq_true.1 h.1.1
  fraction_digits := by
    simp only [Bool.and_eq_true] at h
    exact List.all_eq_true.1 h.1.2
  nonempty := by
    simp only [Bool.and_eq_true, Bool.not_eq_true', Bool.and_eq_false_iff, List.isEmpty_eq_false_iff] at h
    exact h.2

def fraction : List Char := n.fraction?.getD []

def text : List Char :=
  n.whole ++ match n.fraction? with
    | some fraction => '.' :: fraction
    | none => []

/-- The number nearest to a numeral with a sign and an exponent. -/
def value (negative : Bool) (exponent : Int) : Float :=
  nearest negative (ofDigits (n.whole ++ n.fraction)) (exponent - n.fraction.length)

theorem isPointed_of_mem_text : ∀ c ∈ n.text, isPointed c = true := by
  have hdigit : ∀ {c : Char}, isDigit c = true → isPointed c = true := fun h => by rw [isPointed, h]; rfl
  obtain ⟨whole, fraction?, hwhole, hfraction, -⟩ := n
  intro c hc
  rcases List.mem_append.1 hc with hc | hc
  · exact hdigit (hwhole c hc)
  · cases fraction? with
    | none => cases hc
    | some fraction =>
      rcases List.mem_cons.1 hc with rfl | hc
      · rfl
      · exact hdigit (hfraction c hc)

theorem text_ne_nil : n.text ≠ [] := by
  obtain ⟨whole, fraction?, -, -, hne⟩ := n
  cases fraction? with
  | none => exact List.append_ne_nil_of_left_ne_nil (hne.resolve_right fun h => h rfl) _
  | some fraction => exact List.append_ne_nil_of_right_ne_nil _ (List.cons_ne_nil _ _)

end Numeral

section Reading

variable {cs body whole rest frac tail : List Char} {negative : Bool}

/-- What a text is read as, section by section. -/
theorem float?_of_sections (hsign : sign cs = (negative, body)) (hwhole : body.span isDigit = (whole, rest))
    (hfraction : fraction rest = (frac, tail)) : float? cs =
      if whole.isEmpty && frac.isEmpty then word? negative body
      else (exponent? tail).map fun e => nearest negative (ofDigits (whole ++ frac)) (e - frac.length) := by
  simp only [float?, hsign, hwhole, hfraction]

theorem stops_of_pointed {p : Char → Bool} (hp : ∀ c, isPointed c = true → p c = false) (n : Numeral)
    (cs : List Char) : Stops p (n.text ++ cs) := by
  have hchars := n.isPointed_of_mem_text
  obtain ⟨c, rest, htext⟩ := List.exists_cons_of_ne_nil n.text_ne_nil
  rw [htext] at hchars ⊢
  exact stops_cons (hp c (hchars c List.mem_cons_self))

/-- A numeral is read as the number nearest to it. -/
theorem float?_numeral (s : Sign) (n : Numeral) (htail : Stops isPointed tail) :
    float? (s.text ++ (n.text ++ tail)) = (exponent? tail).map (n.value s.negative) := by
  have hdigit : ∀ c, isPointed c = false → isDigit c = false := fun c h =>
    (Bool.or_eq_false_iff.1 h).1
  have hnosign : ∀ c, isPointed c = true → Sign.isSign c = false := by
    intro c h
    by_contra hsign
    rw [Bool.not_eq_false, Sign.isSign, Bool.or_eq_true, beq_iff_eq, beq_iff_eq] at hsign
    rcases hsign with rfl | rfl <;> exact absurd h (by decide)
  have hsign := sign_append s (stops_of_pointed hnosign n tail)
  have hvalue : (exponent? tail).map (n.value s.negative) =
      if n.whole.isEmpty && n.fraction.isEmpty then word? s.negative (n.text ++ tail)
      else (exponent? tail).map fun e =>
        nearest s.negative (ofDigits (n.whole ++ n.fraction)) (e - n.fraction.length) := by
    rw [if_neg]
    · rfl
    · rw [Bool.and_eq_true, List.isEmpty_iff, List.isEmpty_iff]
      exact fun h => n.nonempty.elim (fun hne => hne h.1) fun hne => hne h.2
  rw [hvalue]
  obtain ⟨whole, fraction?, hwhole, hfraction, hne⟩ := n
  cases fraction? with
  | none =>
    refine float?_of_sections hsign (span_eq_iff.2 ⟨List.append_assoc whole [] tail, hwhole, ?_⟩) ?_
    · exact fun c hc => hdigit c (htail c hc)
    · rw [List.nil_append]
      fun_cases fraction tail with
      | case1 cs => exact absurd (htail '.' rfl) (by decide)
      | case2 => rfl
  | some frac =>
    refine float?_of_sections hsign (span_eq_iff.2 ⟨List.append_assoc whole _ tail, hwhole, ?_⟩) ?_
    · exact stops_cons (by decide)
    · exact span_eq_iff.2 ⟨rfl, hfraction, fun c hc => hdigit c (htail c hc)⟩

/-- The words for numbers are made of letters. -/
theorem isAlpha_of_word? {x : Float} (h : word? negative cs = some x) :
    cs ≠ [] ∧ ∀ c ∈ cs, c.isAlpha = true := by
  have hword : ∃ w : List Char, cs.map Char.toLower = w ∧ w ≠ [] ∧ w.all Char.isLower = true := by
    unfold word? at h
    dsimp only at h
    split at h
    · rename_i hw
      rcases hw with hw | hw <;> exact ⟨_, hw, by decide, by decide⟩
    · split at h
      · rename_i hw
        exact ⟨_, hw, by decide, by decide⟩
      · cases h
  obtain ⟨w, rfl, hne, hlower⟩ := hword
  refine ⟨fun hnil => hne (List.map_eq_nil_iff.2 hnil), fun c hc => Text.isAlpha_of_isLower_toLower ?_⟩
  exact List.all_eq_true.1 hlower _ (List.mem_map_of_mem hc)

/-- What is read as a number is one of the words, or a numeral with an exponent behind it. -/
theorem float?_eq_some {x : Float} (h : float? cs = some x) :
    ∃ s : Sign, (∃ body, cs = s.text ++ body ∧ word? s.negative body = some x) ∨
      ∃ (n : Numeral) (tail : List Char) (e : Int), cs = s.text ++ (n.text ++ tail) ∧
        exponent? tail = some e ∧ n.value s.negative e = x := by
  obtain ⟨s, hcs, hnegative⟩ := eq_sign cs
  generalize hbody : (sign cs).2 = body at hcs
  have hsign : sign cs = (s.negative, body) := Prod.ext hnegative hbody
  rcases hwhole : body.span isDigit with ⟨whole, rest⟩
  rcases hfraction : fraction rest with ⟨frac, tail⟩
  rw [float?_of_sections hsign hwhole hfraction] at h
  refine ⟨s, ?_⟩
  split at h
  · exact .inl ⟨body, hcs, h⟩
  · rename_i hne
    obtain ⟨e, he, hx⟩ := Option.map_eq_some_iff.1 h
    rw [Bool.and_eq_true, List.isEmpty_iff, List.isEmpty_iff, not_and_or] at hne
    obtain ⟨rfl, hdigits, -⟩ := span_eq_iff.1 hwhole
    right
    unfold fraction at hfraction
    split at hfraction
    · obtain ⟨rfl, hfrac, -⟩ := span_eq_iff.1 hfraction
      exact ⟨⟨whole, some frac, hdigits, hfrac, hne⟩, tail, e,
        by rw [hcs, Numeral.text, List.append_assoc]; rfl, he, hx⟩
    · obtain ⟨rfl, rfl⟩ := Prod.mk.inj hfraction
      exact ⟨⟨whole, none, hdigits, nofun, hne⟩, rest, e,
        by rw [hcs, Numeral.text, List.append_nil], he, hx⟩

end Reading

end HandlerScript.Decimal
