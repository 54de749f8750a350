import HandlerScript.Number.Hexadecimal
import HandlerScript.Proofs.Number.Numerals

/-! Hexadecimal numerals and what they are read as.

    Digits are read in either letter case, and zeros in front of them count for nothing. So the digits of
    a natural, with any zeros before them and any of their letters made capitals, are read as it. -/

namespace HandlerScript.Hexadecimal

def isDigit (c : Char) : Bool := (digit? c).isSome

/-- The natural that hexadecimal digits spell. -/
def ofDigits (cs : List Char) : Nat := cs.foldl (fun n c => 16 * n + (digit? c).getD 0) 0

theorem digit?_digit : ∀ n < 16, digit? (digit n) = some n := by
  decide

/-! ### Reading -/

section Reading

variable {cs : List Char} {n : Nat}

/-- Reading goes on where every character is a digit, and fails for good at the first that is none. -/
theorem foldl_digits (cs : List Char) (k : Nat) :
    cs.foldl (fun n? c => do return 16 * (← n?) + (← digit? c)) (some k) =
      if cs.all isDigit then some (cs.foldl (fun n c => 16 * n + (digit? c).getD 0) k) else none := by
  have hnone : ∀ ds : List Char,
      ds.foldl (fun n? c => do return 16 * (← n?) + (← digit? c)) (none : Option Nat) = none := by
    intro ds
    induction ds with
    | nil => rfl
    | cons d ds ih => exact ih
  induction cs generalizing k with
  | nil => rfl
  | cons c cs ih =>
    rw [List.foldl_cons, List.all_cons, List.foldl_cons]
    cases hc : digit? c with
    | none =>
      rw [isDigit, hc]
      exact hnone cs
    | some d =>
      rw [isDigit, hc]
      exact ih _

theorem nat?_eq_some_iff :
    nat? cs = some n ↔ cs ≠ [] ∧ (∀ c ∈ cs, isDigit c = true) ∧ ofDigits cs = n := by
  rw [nat?, foldl_digits]
  cases cs with
  | nil => simp
  | cons c cs =>
    rw [← List.all_eq_true]
    simp [ofDigits]

end Reading

/-! ### Spellings of one natural -/

section Spellings

variable {cs : List Char} {c : Char}

/-- The letter case of a digit does not matter. -/
theorem digit?_toLower (c : Char) : digit? c.toLower = digit? c := by
  by_cases hc : c.toNat < 128
  · have hascii : ∀ n < 128, digit? (Char.ofNat n).toLower = digit? (Char.ofNat n) := by decide
    have h := hascii c.toNat hc
    rwa [Char.ofNat_toNat] at h
  · have hupper : ¬ c.isUpper = true := by
      rw [Text.isUpper_iff]
      omega
    have hkept : c.toLower = c := dif_neg fun h => hupper (decide_eq_true h)
    rw [hkept]

theorem isDigit_toLower (c : Char) : isDigit c.toLower = isDigit c := by
  rw [isDigit, digit?_toLower, isDigit]

theorem ofDigits_map_toLower (cs : List Char) : ofDigits (cs.map Char.toLower) = ofDigits cs := by
  simp only [ofDigits, List.foldl_map, digit?_toLower]

theorem ofDigits_zeros_append (zeros : Nat) (cs : List Char) :
    ofDigits (List.replicate zeros '0' ++ cs) = ofDigits cs := by
  induction zeros with
  | zero => rfl
  | succ zeros ih => exact ih

/-- The digits of a natural spell it. -/
theorem ofDigits_digits (n : Nat) : ofDigits (digits n) = n := by
  induction n using digits.induct with
  | case1 n hn =>
    rw [digits, if_pos hn, ofDigits, List.foldl_cons, digit?_digit n hn]
    exact Nat.zero_add n
  | case2 n hn ih =>
    rw [digits, if_neg hn, ofDigits, List.foldl_append, ← ofDigits, ih, List.foldl_cons,
      digit?_digit _ (Nat.mod_lt n (by decide))]
    exact Nat.div_add_mod n 16

theorem isDigit_of_mem_digits (n : Nat) : ∀ c ∈ digits n, isDigit c = true := by
  have hdigit : ∀ d < 16, isDigit (digit d) = true := by decide
  induction n using digits.induct with
  | case1 n hn =>
    rw [digits, if_pos hn]
    exact List.forall_mem_singleton.2 (hdigit n hn)
  | case2 n hn ih =>
    rw [digits, if_neg hn]
    refine List.forall_mem_append.2 ⟨ih, List.forall_mem_singleton.2 ?_⟩
    exact hdigit _ (Nat.mod_lt n (by decide))

theorem digits_ne_nil (n : Nat) : digits n ≠ [] := by
  rw [digits]
  split
  · exact List.cons_ne_nil _ _
  · exact List.append_ne_nil_of_right_ne_nil _ (List.cons_ne_nil _ _)

end Spellings

end HandlerScript.Hexadecimal
