import HandlerScript.Text.Blank
import HandlerScript.Text.Letters

/-! Classes of characters.

    Letters and digits are intervals of codes, so a character of one class is none of another. Writing in
    small letters makes letters of letters only. -/

namespace HandlerScript.Text

section Classes

variable {word : List Char} {c : Char}

theorem isUpper_iff : c.isUpper = true ↔ 65 ≤ c.toNat ∧ c.toNat ≤ 90 :=
  decide_eq_true_iff.trans (and_congr UInt32.le_iff_toNat_le UInt32.le_iff_toNat_le)

theorem isLower_iff : c.isLower = true ↔ 97 ≤ c.toNat ∧ c.toNat ≤ 122 :=
  Bool.and_eq_true_iff.trans (and_congr (decide_eq_true_iff.trans UInt32.le_iff_toNat_le)
    (decide_eq_true_iff.trans UInt32.le_iff_toNat_le))

theorem isDigit_iff : c.isDigit = true ↔ 48 ≤ c.toNat ∧ c.toNat ≤ 57 :=
  Bool.and_eq_true_iff.trans (and_congr (decide_eq_true_iff.trans UInt32.le_iff_toNat_le)
    (decide_eq_true_iff.trans UInt32.le_iff_toNat_le))

theorem isAlpha_iff : c.isAlpha = true ↔ c.isUpper = true ∨ c.isLower = true :=
  Bool.or_eq_true_iff

theorem isAlphanum_iff : c.isAlphanum = true ↔ c.isAlpha = true ∨ c.isDigit = true :=
  Bool.or_eq_true_iff

theorem isAlpha_of_isLower_toLower (h : c.toLower.isLower = true) : c.isAlpha = true := by
  unfold Char.toLower at h
  split at h
  · rename_i hc
    exact isAlpha_iff.2 (.inl (decide_eq_true hc))
  · exact isAlpha_iff.2 (.inr h)

theorem isBlank_of_isAlphanum (h : c.isAlphanum = true) : isBlank c = false := by
  rw [isAlphanum_iff, isAlpha_iff, isUpper_iff, isLower_iff, isDigit_iff] at h
  rw [Bool.eq_false_iff]
  simp only [isBlank, ne_eq, Bool.or_eq_true, Bool.and_eq_true, decide_eq_true_eq, beq_iff_eq]
  omega

theorem isAlpha_of_isDigit (h : c.isDigit = true) : c.isAlpha = false := by
  rw [isDigit_iff] at h
  rw [Bool.eq_false_iff, ne_eq, isAlpha_iff, isUpper_iff, isLower_iff]
  omega

/-- What is a word of small letters in small letters is made of letters. -/
theorem isAlpha_of_lower {text : String} (htext : text.toList.all Char.isLower = true)
    (h : lower (String.ofList word) = text) : ∀ c ∈ word, c.isAlpha = true := by
  intro c hc
  refine isAlpha_of_isLower_toLower (List.all_eq_true.1 htext _ ?_)
  rw [← h, lower, String.toList_ofList, String.toList_ofList]
  exact List.mem_map_of_mem hc

end Classes

end HandlerScript.Text
