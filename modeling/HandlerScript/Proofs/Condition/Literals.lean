import HandlerScript.Proofs.Condition.Quotes
import HandlerScript.Proofs.Text.Pieces

/-! Literals: comparisons with negations before them.

    A condition without connectives is one literal. Blanks around it do not matter. An exclamation mark
    at its front negates the rest unless an equals sign follows it; what is not negated is a comparison.
    Negations are counted by fuel, and as many as the text is long are enough. -/

namespace HandlerScript.Condition

/-- The meaning of a condition without connectives. -/
def single (cs : List Char) : Bool := literal cs.length cs

section Literal

variable {cs rest : List Char} {fuel : Nat}

theorem meaning_of_not_mem (hand : '&' ∉ cs) (hor : '|' ∉ cs) : meaning cs = single cs := by
  rw [meaning, Text.piecesAtDouble_of_not_mem hand, List.all_cons, List.all_nil, Bool.and_true,
    Text.piecesAtDouble_of_not_mem hor, List.any_cons, List.any_nil, Bool.or_false, single]

theorem literal_trimmed (fuel : Nat) (cs : List Char) :
    literal fuel (Text.trimmed cs) = literal fuel cs := by
  cases fuel with
  | zero => rw [literal, literal, Text.trimmed_trimmed]
  | succ fuel => rw [literal, literal, Text.trimmed_trimmed]

theorem literal_negated (h : Text.trimmed cs = '!' :: rest) (hrest : rest.head? ≠ some '=') :
    literal (fuel + 1) cs = !literal fuel rest := by
  rw [literal, h]
  exact if_neg hrest

theorem literal_compared (h : ∀ rest, Text.trimmed cs = '!' :: rest → rest.head? = some '=') :
    literal fuel cs = compare (Text.trimmed cs) := by
  cases fuel with
  | zero => rw [literal]
  | succ fuel =>
    rw [literal]
    split
    · rename_i rest htrimmed
      rw [if_pos (h rest htrimmed), htrimmed]
    · rfl

theorem length_trimmed_le (cs : List Char) : (Text.trimmed cs).length ≤ cs.length :=
  (List.rdropWhile_prefix Text.isBlank _).length_le.trans
    (List.dropWhile_suffix Text.isBlank).length_le

/-- Fuel for every character is enough, and more makes no difference. -/
theorem literal_of_le {m n : Nat} (hm : cs.length ≤ m) (hn : cs.length ≤ n) :
    literal m cs = literal n cs := by
  -- each negation takes a character away, so the fuel for what is left is enough again
  induction m generalizing n cs with
  | zero =>
    cases List.length_eq_zero_iff.1 (Nat.le_zero.1 hm)
    have hnil : ∀ rest, Text.trimmed [] = '!' :: rest → rest.head? = some '=' := by
      rintro _ ⟨⟩
    rw [literal_compared hnil, literal_compared hnil]
  | succ m ih =>
    by_cases h : ∃ rest, Text.trimmed cs = '!' :: rest ∧ rest.head? ≠ some '='
    · obtain ⟨rest, htrimmed, hrest⟩ := h
      have hshort : rest.length < cs.length := by
        have hle := length_trimmed_le cs
        rwa [htrimmed, List.length_cons] at hle
      obtain ⟨n, rfl⟩ : ∃ k, n = k + 1 := ⟨n - 1, by omega⟩
      rw [literal_negated htrimmed hrest, literal_negated htrimmed hrest,
        ih (by omega) (Nat.le_of_lt_succ (Nat.lt_of_lt_of_le hshort hn))]
    · have hcompared : ∀ rest, Text.trimmed cs = '!' :: rest → rest.head? = some '=' := by
        intro rest htrimmed
        by_contra hrest
        exact h ⟨rest, htrimmed, hrest⟩
      rw [literal_compared hcompared, literal_compared hcompared]

theorem single_trimmed (cs : List Char) : single (Text.trimmed cs) = single cs := by
  rw [single, literal_of_le le_rfl (length_trimmed_le cs), literal_trimmed, single]

theorem single_compared (h : ∀ rest, Text.trimmed cs = '!' :: rest → rest.head? = some '=') :
    single cs = compare (Text.trimmed cs) :=
  literal_compared h

theorem single_negated (h : cs.head? ≠ some '=') : single ('!' :: cs) = !single cs := by
  have htrimmed : Text.trimmed ('!' :: cs) = '!' :: cs.rdropWhile Text.isBlank :=
    Text.trimmed_cons_of_not rfl cs
  have hfront := List.rdropWhile_prefix Text.isBlank cs
  have hhead : (cs.rdropWhile Text.isBlank).head? ≠ some '=' := by
    intro heq
    obtain ⟨dropped, hcs⟩ := hfront
    rw [← hcs, List.head?_append, heq] at h
    exact h rfl
  rw [single, List.length_cons, literal_negated htrimmed hhead, literal_of_le hfront.length_le le_rfl,
    ← single, ← single_trimmed, Text.trimmed_rdropWhile, single_trimmed]

/-- Negations cancel in pairs. -/
theorem single_replicate (h : cs.head? ≠ some '=') (n : Nat) :
    single (List.replicate n '!' ++ cs) = if n % 2 = 1 then !single cs else single cs := by
  induction n with
  | zero => rfl
  | succ n ih =>
    have hhead : (List.replicate n '!' ++ cs).head? ≠ some '=' := by
      cases n with
      | zero => exact h
      | succ n => rintro ⟨⟩
    rw [List.replicate_succ, List.cons_append, single_negated hhead, ih]
    by_cases hodd : n % 2 = 1
    · rw [if_pos hodd, if_neg (by omega), Bool.not_not]
    · rw [if_neg hodd, if_pos (by omega)]

end Literal

/-! ### Negations and words -/

section Negations

variable {cs : List Char}

/-- A word with a negation at its front is no operator. -/
theorem not_isOperator_negated {word : List Char} (h : (words ('!' :: cs)).head? = some word) :
    ¬ IsOperator word := by
  have hwords : words ('!' :: cs) = Text.onFirst '!' (words cs) := rfl
  rw [hwords] at h
  cases hrest : words cs with
  | nil =>
    rw [hrest] at h
    cases h
    decide
  | cons first more =>
    rw [hrest] at h
    cases h
    exact not_isOperator_of_mem List.mem_cons_self rfl

theorem isWord_cons (h : IsWord cs) : IsWord ('!' :: cs) := by
  have hquote : (Words.push {} '!').quote = (Words.quote {}) := rfl
  exact (Words.goesOn_congr hquote cs).trans h

theorem closed_cons (h : Closed cs) : Closed ('!' :: cs) := by
  rw [closed_iff] at h ⊢
  exact h

/-- A negation in front of a word that is no operator stays, and so does the word. -/
theorem respellFrom_negation (h : ∀ word, (words cs).head? = some word → ¬ IsOperator word) :
    respellFrom {} ('!' :: cs) = '!' :: respellFrom {} cs := by
  have hnegated : ∀ word, ¬ IsOperator ('!' :: word) := fun word =>
    not_isOperator_of_mem List.mem_cons_self rfl
  rcases exists_word {} cs with hword | ⟨word, c, rest, rfl, hword, hclosed, hc⟩
  · rw [words_word hword] at h
    rw [respellFrom_word (isWord_cons hword), respellFrom_word hword,
      respelled_of_not_isOperator (hnegated cs), respelled_of_not_isOperator (h cs rfl)]
  · rw [words_blank hword hclosed hc] at h
    rw [← List.cons_append, respellFrom_blank (isWord_cons hword) (closed_cons hclosed) hc,
      respellFrom_blank hword hclosed hc, respelled_of_not_isOperator (hnegated word),
      respelled_of_not_isOperator (h word rfl), List.cons_append]

theorem respellFrom_replicate (h : ∀ word, (words cs).head? = some word → ¬ IsOperator word) (n : Nat) :
    respellFrom {} (List.replicate n '!' ++ cs) = List.replicate n '!' ++ respellFrom {} cs := by
  induction n with
  | zero => rfl
  | succ n ih =>
    have hfirst : ∀ word, (words (List.replicate n '!' ++ cs)).head? = some word →
        ¬ IsOperator word := by
      cases n with
      | zero => exact h
      | succ n => exact fun word => not_isOperator_negated
    rw [List.replicate_succ, List.cons_append, respellFrom_negation hfirst, ih, List.cons_append]

/-- Respelling keeps the first character if the first word is no operator. -/
theorem head?_respellFrom (h : ∀ word, (words cs).head? = some word → ¬ IsOperator word) :
    (respellFrom {} cs).head? = cs.head? := by
  rcases exists_word {} cs with hword | ⟨word, c, rest, rfl, hword, hclosed, hc⟩
  · rw [words_word hword] at h
    rw [respellFrom_word hword, respelled_of_not_isOperator (h cs rfl)]
  · rw [words_blank hword hclosed hc] at h
    rw [respellFrom_blank hword hclosed hc, respelled_of_not_isOperator (h word rfl),
      List.head?_append, List.head?_append]
    rfl

end Negations

end HandlerScript.Condition
