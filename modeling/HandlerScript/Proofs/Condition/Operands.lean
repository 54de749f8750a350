import HandlerScript.Proofs.Condition.Literals

/-! Operands.

    An operand has no operator in it, neither a symbol nor a word outside quotes, so normalizing keeps it
    and no cut is made in it. It is read without the blanks and the one pair of quotes around it. A
    condition that is one operand alone is a truth value. -/

namespace HandlerScript.Condition

/-- A text that can stand beside a comparison. -/
structure IsOperand (cs : List Char) : Prop where
  plain : ∀ c ∈ cs, c ∉ ['&', '|', '!', '=', '<', '>']
  closesQuotes : ClosesQuotes cs
  no_word : ∀ word ∈ words cs, ¬ IsOperator word

/-- An operand without the blanks around it, and without the pair of quotes if it is in quotes. -/
inductive Bare (cs : List Char) : List Char → Prop
  | quoted {q : Char} {inner : List Char} : q = '"' ∨ q = '\'' →
      Text.trimmed cs = q :: (inner ++ [q]) → Bare cs inner
  | plain : (∀ q inner, q = '"' ∨ q = '\'' → Text.trimmed cs ≠ q :: (inner ++ [q])) →
      Bare cs (Text.trimmed cs)

/-- A text without braces, quotes and operators. -/
structure IsPlain (cs : List Char) : Prop where
  plain : ∀ c ∈ cs, c ∉ ['{', '}', '"', '\'', '&', '|', '!', '=', '<', '>']
  no_word : ∀ word ∈ words cs, ¬ IsOperator word

/-! ### Operands without quotes -/

section Bare

variable {cs : List Char}

theorem unquote_congr {ds : List Char} (h : Text.trimmed cs = Text.trimmed ds) :
    unquote cs = unquote ds := by
  rw [unquote, unquote, h]

theorem bare_unquote (cs : List Char) : Bare cs (unquote cs) := by
  unfold unquote
  dsimp only
  split
  · rename_i q rest htrimmed
    split
    · rename_i hquoted
      obtain ⟨inner, rfl⟩ := List.getLast?_eq_some_iff.1 hquoted.2
      rw [List.dropLast_concat]
      exact .quoted hquoted.1 htrimmed
    · rename_i hplain
      refine .plain fun mark inner hmark heq => hplain ?_
      cases htrimmed.symm.trans heq
      exact ⟨hmark, List.getLast?_concat⟩
  · rename_i htrimmed
    refine .plain fun mark inner hmark heq => ?_
    cases htrimmed.symm.trans heq

/-- A text has one bare form. -/
theorem Bare.unique {a b : List Char} (ha : Bare cs a) (hb : Bare cs b) : a = b := by
  cases ha with
  | quoted hq htrimmed =>
    cases hb with
    | quoted hq' htrimmed' =>
      exact List.append_inj_left' (List.cons.inj (htrimmed.symm.trans htrimmed')).2 rfl
    | plain hplain => exact absurd htrimmed (hplain _ _ hq)
  | plain hplain =>
    cases hb with
    | quoted hq htrimmed => exact absurd htrimmed (hplain _ _ hq)
    | plain _ => rfl

theorem unquote_of_not_mem (hdouble : '"' ∉ cs) (hsingle : '\'' ∉ cs) :
    unquote cs = Text.trimmed cs := by
  refine (bare_unquote cs).unique (.plain fun q inner hq htrimmed => ?_)
  have hmem := Text.trimmed_subset cs (htrimmed ▸ List.mem_cons_self)
  rcases hq with rfl | rfl
  · exact hdouble hmem
  · exact hsingle hmem

end Bare

section Operand

variable {cs : List Char}

theorem IsOperand.not_mem {c : Char} (h : IsOperand cs) (hc : c ∈ ['&', '|', '!', '=', '<', '>']) :
    c ∉ cs :=
  fun hmem => h.plain c hmem hc

theorem IsOperand.respellFrom (h : IsOperand cs) : respellFrom {} cs = cs :=
  respellFrom_of_forall_words h.no_word

/-! ### Operands alone -/

theorem isBareToken_trimmed (cs : List Char) :
    Template.isBareToken (Text.trimmed cs) = Template.isBareToken cs := by
  rw [Template.isBareToken, Template.braced?, Text.trimmed_trimmed]
  rfl

/-- Without operators a condition is a truth value, and a reference that stayed is false. -/
theorem compare_of_not_mem (h : ∀ c ∈ ['=', '<', '>'], c ∉ cs) :
    compare cs = (!Template.isBareToken cs && Scalar.textTruth (String.ofList (unquote cs))) := by
  have hnone : ∀ (mark : List Char) (c : Char), c ∈ ['=', '<', '>'] → c ∈ mark →
      Text.cut? mark cs = none := fun mark c hc hmem =>
    Text.cut?_of_not_infix fun hphrase => h c hc (hphrase.subset hmem)
  unfold Condition.compare
  rw [hnone ['=', '='] '=' (by decide) (by decide), hnone ['!', '='] '=' (by decide) (by decide),
    hnone ['>', '='] '=' (by decide) (by decide), hnone ['<', '='] '=' (by decide) (by decide),
    hnone ['>'] '>' (by decide) (by decide), hnone ['<'] '<' (by decide) (by decide)]

theorem IsOperand.single (h : IsOperand cs) : single cs =
    (!Template.isBareToken cs && Scalar.textTruth (String.ofList (unquote cs))) := by
  have htrimmed : ∀ c ∈ ['=', '<', '>'], c ∉ Text.trimmed cs := fun c hc hmem =>
    h.not_mem (List.mem_append_right ['&', '|', '!'] hc) (Text.trimmed_subset cs hmem)
  have hcompared : ∀ rest, Text.trimmed cs = '!' :: rest → rest.head? = some '=' := fun rest heq =>
    absurd (Text.trimmed_subset cs (heq ▸ List.mem_cons_self)) (h.not_mem (by decide))
  rw [single_compared hcompared, compare_of_not_mem htrimmed, isBareToken_trimmed,
    unquote_congr (Text.trimmed_trimmed cs)]

theorem IsOperand.holdsText_alone (h : IsOperand cs) : holdsText (String.ofList cs) =
    (!Template.isBareToken cs && Scalar.textTruth (String.ofList (unquote cs))) := by
  have hunescaped : Unescaped cs := unescaped_of_not_mem List.mem_cons_self (h.not_mem (by decide))
  rw [holdsText, String.toList_ofList, normalize_of_unescaped hunescaped, h.respellFrom,
    meaning_of_not_mem (h.not_mem (by decide)) (h.not_mem (by decide)), h.single]

theorem IsOperand.holdsText_negated (h : IsOperand cs) :
    holdsText (String.ofList ('!' :: cs)) = !holdsText (String.ofList cs) := by
  have hunescaped : Unescaped ('!' :: cs) :=
    unescaped_of_not_mem List.mem_cons_self (by simp [h.not_mem])
  have hfirst : ∀ word, (words cs).head? = some word → ¬ IsOperator word := fun word hword =>
    h.no_word word (List.mem_of_head? hword)
  have hhead : cs.head? ≠ some '=' := fun heq => h.not_mem (by decide) (List.mem_of_head? heq)
  have hchars : ∀ c ∈ ['&', '|'], c ∉ '!' :: cs := by simp [h.not_mem]
  rw [holdsText, String.toList_ofList, normalize_of_unescaped hunescaped, respellFrom_negation hfirst,
    h.respellFrom, meaning_of_not_mem (hchars _ (by decide)) (hchars _ (by decide)),
    single_negated hhead, h.single, h.holdsText_alone]

end Operand

section Plain

variable {cs : List Char}

theorem IsPlain.not_mem {c : Char} (h : IsPlain cs)
    (hc : c ∈ ['{', '}', '"', '\'', '&', '|', '!', '=', '<', '>']) : c ∉ cs :=
  fun hmem => h.plain c hmem hc

theorem IsPlain.isOperand (h : IsPlain cs) : IsOperand cs where
  plain c hmem hc := h.plain c hmem (List.mem_append_right ['{', '}', '"', '\''] hc)
  closesQuotes := closesQuotes_of_not_mem (h.not_mem (by decide)) (h.not_mem (by decide))
  no_word := h.no_word

theorem IsPlain.unquote (h : IsPlain cs) : unquote cs = Text.trimmed cs :=
  unquote_of_not_mem (h.not_mem (by decide)) (h.not_mem (by decide))

theorem isBareToken_of_not_mem (h : '{' ∉ cs) : Template.isBareToken cs = false := by
  have hbraced : Template.braced? cs = none := by
    unfold Template.braced?
    split
    · rename_i rest htrimmed
      exact absurd (Text.trimmed_subset cs (htrimmed ▸ List.mem_cons_self)) h
    · rfl
  rw [Template.isBareToken, hbraced]
  rfl

/-- A plain text holds if it counts as true. -/
theorem IsPlain.holdsText (h : IsPlain cs) :
    holdsText (String.ofList cs) = Scalar.textTruth (String.ofList cs) := by
  rw [h.isOperand.holdsText_alone, isBareToken_of_not_mem (h.not_mem (by decide)), h.unquote,
    Bool.not_false, Bool.true_and, Scalar.textTruth, Scalar.textTruth, Text.trim, Text.trim,
    String.toList_ofList, String.toList_ofList, Text.trimmed_trimmed]

end Plain

end HandlerScript.Condition
