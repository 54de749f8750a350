import HandlerScript.Json.Token
import HandlerScript.Proofs.Number.Hexadecimal
import HandlerScript.Proofs.Text.Bytes

/-! Strings read back.

    Every character is written as itself or as a backslash and a code, and a code is read as the
    character it was written for, whatever follows it. No character written as itself is a quote, a
    backslash or a control character, so a written string ends at its own closing quote. -/

namespace HandlerScript

namespace Json

/-- Four hexadecimal digits are read as the number they spell. -/
theorem hexFour_digits {a b c d : Nat} (ha : a < 16) (hb : b < 16) (hc : c < 16) (hd : d < 16)
    (rest : List Char) :
    hexFour (Hexadecimal.digit a :: Hexadecimal.digit b :: Hexadecimal.digit c ::
      Hexadecimal.digit d :: rest) = .ok (((a * 16 + b) * 16 + c) * 16 + d, rest) := by
  rw [hexFour, if_neg]
  · simp only [Hexadecimal.digit?_digit, ha, hb, hc, hd]
  · have hlength := Text.length_le_byteCount (Hexadecimal.digit a :: Hexadecimal.digit b ::
      Hexadecimal.digit c :: Hexadecimal.digit d :: rest)
    simp only [List.length_cons] at hlength
    omega

/-- The code of a control character is read as the character. -/
theorem escape_control {c : Char} (h : c.toNat < 0x20) (rest : List Char) :
    escape ('u' :: '0' :: '0' :: Hexadecimal.digit (c.toNat / 16) ::
      Hexadecimal.digit (c.toNat % 16) :: rest) = .ok (c, rest) := by
  have hcode := hexFour_digits (a := 0) (b := 0) (c := c.toNat / 16) (d := c.toNat % 16)
    (by omega) (by omega) (by omega) (by omega) rest
  have hvalue : ((0 * 16 + 0) * 16 + c.toNat / 16) * 16 + c.toNat % 16 = c.toNat := by omega
  have hzero : Hexadecimal.digit 0 = '0' := rfl
  rw [hvalue, hzero] at hcode
  simp only [escape, hcode, bind, Except.bind]
  rw [if_neg (by omega), if_neg (by omega), Char.ofNat_toNat]
  rfl

/-- A character is written as itself, and is then none that ends or interrupts a string, or as a
    backslash and a code that is read as the character. -/
theorem escaped_cases (c : Char) :
    (escaped c = [c] ∧ c ≠ '"' ∧ c ≠ '\\' ∧ ¬ c.toNat < 0x20) ∨
      ∃ code, escaped c = '\\' :: code ∧ ∀ rest, escape (code ++ rest) = .ok (c, rest) := by
  fun_cases escaped c with
  | case8 =>
    rename_i hcontrol
    exact .inr ⟨_, rfl, escape_control hcontrol⟩
  | case9 =>
    rename_i hquote hbackslash _ _ _ _ _ hcontrol
    exact .inl ⟨rfl, hquote, hbackslash, hcontrol⟩
  | _ =>
    subst_vars
    exact .inr ⟨_, rfl, fun _ => rfl⟩

theorem stringUpTo_escaped (rest : List Char) : ∀ {cs : List Char} {fuel : Nat}, cs.length ≤ fuel →
    stringUpTo fuel (cs.flatMap escaped ++ '"' :: rest) = .ok (cs, rest) := by
  intro cs
  induction cs with
  | nil =>
    intro fuel _
    cases fuel <;> rfl
  | cons c cs ih =>
    rintro (_ | fuel) hfuel
    · simp at hfuel
    have hmore := @ih fuel (Nat.le_of_succ_le_succ hfuel)
    rw [List.flatMap_cons, List.append_assoc]
    rcases escaped_cases c with ⟨hself, hquote, hbackslash, hcontrol⟩ | ⟨code, hcode, hread⟩
    · rw [hself, List.singleton_append, stringUpTo, if_neg hcontrol, hmore]
      · rfl
      all_goals simp [hquote, hbackslash]
    · rw [hcode, List.cons_append, stringUpTo, hread]
      simp only [bind, Except.bind, hmore]
      rfl

theorem length_le_length_flatMap_escaped (cs : List Char) :
    cs.length ≤ (cs.flatMap escaped).length := by
  induction cs with
  | nil => exact Nat.le_refl 0
  | cons c cs ih =>
    have hc : 1 ≤ (escaped c).length := by
      rcases escaped_cases c with ⟨hself, -⟩ | ⟨code, hcode, -⟩
      · simp [hself]
      · simp [hcode]
    rw [List.flatMap_cons, List.length_append, List.length_cons]
    omega

/-- A written string is read back up to its closing quote. -/
theorem string_escaped (s : String) (rest : List Char) :
    string (s.toList.flatMap escaped ++ '"' :: rest) = .ok (s, rest) := by
  have hfuel := length_le_length_flatMap_escaped s.toList
  rw [string, stringUpTo_escaped rest (by rw [List.length_append]; omega)]
  simp only [bind, Except.bind, String.ofList_toList]
  rfl

theorem quoted_append (s : String) (rest : List Char) :
    quoted s ++ rest = '"' :: (s.toList.flatMap escaped ++ '"' :: rest) := by
  simp [quoted]

end Json

end HandlerScript
