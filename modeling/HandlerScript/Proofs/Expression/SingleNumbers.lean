import HandlerScript.Proofs.Expression.Groups
import HandlerScript.Proofs.Text.Trim
import HandlerScript.Scalar.Basic

/-! Single numbers.

    A text that is read as a number has no blanks and no parentheses, and the only operators that can occur
    in it are two signs, one in front and one in the exponent. The first is known as a sign. The second is
    not, because it stands behind a letter: the text is split there, what is in front of it ends in the
    mark of the exponent and is no number, and the digits behind it are added to zero or taken from it. -/

namespace HandlerScript.Expression

open Decimal (Sign Numeral isDigit float?)

/-! ### Signs in exponents -/

/-- Characters that an exponent begins with. -/
def IsMark (c : Char) : Prop := c = 'e' ∨ c = 'E'

instance (c : Char) : Decidable (IsMark c) := inferInstanceAs (Decidable (_ ∨ _))

/-- The sign in the exponent of a numeral, and the digits behind it. -/
def exponentSign? : List Char → Option (Operator × List Char)
  | [] => none
  | c :: cs => if IsMark c then (cs.head?.bind sum?).map (·, cs.tail) else exponentSign? cs

/-- The texts that are read as numbers: in one piece behind the sign, or with a sign in the exponent. -/
inductive NumberText : List Char → Prop
  | piece (s : Sign) {body : List Char} : body ≠ [] → (∀ c ∈ body, IsBody c) →
      NumberText (s.text ++ body)
  | exponent (s : Sign) (n : Numeral) {mark : Char} {op : Operator} {ds : List Char} : IsMark mark →
      op.isSum = true → ds ≠ [] → (∀ c ∈ ds, isDigit c = true) →
      NumberText (s.text ++ (n.text ++ mark :: op.symbol :: ds))

section Signs

variable {c : Char} {cs front tail body ds : List Char} {op : Operator} {e : Int}

theorem exponentSign?_eq_none (h : ∀ c ∈ cs, sum? c = none) : exponentSign? cs = none := by
  induction cs with
  | nil => rfl
  | cons c cs ih =>
    have hcs := (List.forall_mem_cons.1 h).2
    rw [exponentSign?]
    split
    · cases cs with
      | nil => rfl
      | cons d ds =>
        rw [List.head?_cons, Option.bind_some, hcs d List.mem_cons_self]
        rfl
    · exact ih hcs

theorem exponentSign?_append (h : ∀ c ∈ front, ¬ IsMark c) (cs : List Char) :
    exponentSign? (front ++ cs) = exponentSign? cs := by
  induction front with
  | nil => rfl
  | cons c front ih =>
    obtain ⟨hc, hfront⟩ := List.forall_mem_cons.1 h
    rw [List.cons_append, exponentSign?, if_neg hc, ih hfront]

theorem exponentSign?_mark {mark : Char} (h : IsMark mark) (hop : op.isSum = true) (ds : List Char) :
    exponentSign? (mark :: op.symbol :: ds) = some (op, ds) := by
  rw [exponentSign?, if_pos h, List.head?_cons, Option.bind_some, sum?_symbol, hop]
  rfl

theorem isBody_of_isDigit (h : isDigit c = true) : IsBody c := .pointed (by rw [Decimal.isPointed, h]; rfl)

theorem IsMark.isBody (h : IsMark c) : IsBody c := by
  rcases h with rfl | rfl <;> exact .letter rfl

/-- What is read as a number is such a text. -/
theorem numberText_of_float? {x : Float} (h : float? cs = some x) : NumberText cs := by
  obtain ⟨s, ⟨body, rfl, hword⟩ | ⟨n, tail, e, rfl, he, -⟩⟩ := Decimal.float?_eq_some h
  · obtain ⟨hne, hletters⟩ := Decimal.isAlpha_of_word? hword
    exact .piece s hne fun c hc => .letter (hletters c hc)
  · have hnumeral : ∀ c ∈ n.text, IsBody c := fun c hc => .pointed (n.isPointed_of_mem_text c hc)
    rcases Decimal.exponent?_eq_some he with rfl | ⟨mark, rest, hmark, rfl, hrest⟩
    · exact .piece s (List.append_ne_nil_of_left_ne_nil n.text_ne_nil _) (by simpa using hnumeral)
    · obtain ⟨sign, ds, rfl, hne, hdigits⟩ := Decimal.int?_eq_some hrest
      cases sign with
      | absent =>
        refine .piece s (List.append_ne_nil_of_left_ne_nil n.text_ne_nil _) ?_
        refine List.forall_mem_append.2 ⟨hnumeral, List.forall_mem_cons.2 ⟨IsMark.isBody hmark, ?_⟩⟩
        exact fun c hc => isBody_of_isDigit (hdigits c hc)
      | plus => exact @NumberText.exponent s n mark .add ds hmark rfl hne hdigits
      | minus => exact @NumberText.exponent s n mark .sub ds hmark rfl hne hdigits

theorem NumberText.isNumeric (h : NumberText cs) : ∀ c ∈ cs, IsNumeric c := by
  cases h with
  | piece s hne hbody => exact isNumeric_sign_append fun c hc => .body (hbody c hc)
  | @exponent s n mark op ds hmark hop hne hdigits =>
    have hsign : Sign.isSign op.symbol = true := by
      cases op with
      | add | sub => rfl
      | mul | div => cases hop
    refine isNumeric_sign_append (List.forall_mem_append.2 ⟨fun c hc => ?_, ?_⟩)
    · exact .body (.pointed (n.isPointed_of_mem_text c hc))
    · refine List.forall_mem_cons.2 ⟨.body hmark.isBody, List.forall_mem_cons.2 ⟨.sign hsign, ?_⟩⟩
      exact fun c hc => .body (isBody_of_isDigit (hdigits c hc))

theorem not_isMark_of_mem_sign {s : Sign} : ∀ c ∈ s.text, ¬ IsMark c := by
  cases s <;> simp [Sign.text, IsMark]

theorem exponentSign?_piece (s : Sign) (h : ∀ c ∈ body, IsBody c) :
    exponentSign? (s.text ++ body) = none := by
  rw [exponentSign?_append not_isMark_of_mem_sign]
  exact exponentSign?_eq_none fun c hc => isKind_sum.opens c (h c hc).opensOperand

theorem exponentSign?_exponent (s : Sign) (n : Numeral) {mark : Char} (hmark : IsMark mark)
    (hop : op.isSum = true) (ds : List Char) :
    exponentSign? (s.text ++ (n.text ++ mark :: op.symbol :: ds)) = some (op, ds) := by
  have hnumeral : ∀ c ∈ n.text, ¬ IsMark c := by
    rintro c hc (rfl | rfl) <;> exact absurd (n.isPointed_of_mem_text _ hc) (by decide)
  rw [exponentSign?_append not_isMark_of_mem_sign, exponentSign?_append hnumeral,
    exponentSign?_mark hmark hop]

/-- In front of the sign of its exponent a numeral is none. -/
theorem flat_exponent (s : Sign) (n : Numeral) {mark : Char} (hmark : IsMark mark)
    (hop : op.isSum = true) (hne : ds ≠ []) (hdigits : ∀ c ∈ ds, isDigit c = true) :
    flat (s.text ++ (n.text ++ mark :: op.symbol :: ds)) = op.apply 0.0 ((float? ds).getD 0.0) := by
  have hleft : Unbroken (s.text ++ (n.text ++ [mark])) := by
    refine unbroken_sign_append s (List.append_ne_nil_of_left_ne_nil n.text_ne_nil _) ?_
    refine List.forall_mem_append.2 ⟨fun c hc => .pointed (n.isPointed_of_mem_text c hc), ?_⟩
    exact fun c hc => List.mem_singleton.1 hc ▸ hmark.isBody
  have hright : Unbroken ds :=
    unbroken_sign_append .absent hne fun c hc => isBody_of_isDigit (hdigits c hc)
  have hzero : flat (s.text ++ (n.text ++ [mark])) = 0.0 := by
    have htail : Text.Stops Decimal.isPointed [mark] := by
      rcases hmark with rfl | rfl <;> exact Text.stops_cons rfl
    have hnone : Decimal.exponent? [mark] = none := if_pos hmark
    rw [flat_unbroken hleft, Decimal.float?_numeral s n htail, hnone]
    rfl
  have hsplit := flat_sum (hleft.passes isKind_sum) hop ds
  rw [hzero, flat_unbroken hright] at hsplit
  rw [← hsplit]
  simp only [List.append_assoc, List.cons_append, List.nil_append]

end Signs

/-! ### Evaluation -/

section Values

variable {cs : List Char}

theorem numberOf_of_isNumeric (h : ∀ c ∈ cs, IsNumeric c) :
    Scalar.numberOf (String.ofList cs) = (float? cs).getD 0.0 := by
  rw [Scalar.numberOf, String.toList_ofList, Text.trimmed_eq_self fun c hc => (h c hc).isBlank]

theorem value_of_isNumeric (h : ∀ c ∈ cs, IsNumeric c) : value (String.ofList cs) = flat cs :=
  value_of_collapses (.of_numeric h) (.of_numeric h)

/-- A number evaluates to what it is coerced to, unless its exponent has a sign. Then the digits of the
    exponent are added to zero or taken from it. -/
theorem value_of_float? {text : String} {x : Float} (h : float? text.toList = some x) :
    (exponentSign? text.toList = none → value text = Scalar.numberOf text) ∧
      ∀ op ds, exponentSign? text.toList = some (op, ds) →
        value text = op.apply 0.0 (Scalar.numberOf (String.ofList ds)) := by
  obtain ⟨cs, rfl⟩ : ∃ cs, text = String.ofList cs := ⟨_, String.ofList_toList.symm⟩
  rw [String.toList_ofList] at h ⊢
  have htext := numberText_of_float? h
  rw [numberOf_of_isNumeric htext.isNumeric, value_of_isNumeric htext.isNumeric]
  cases htext with
  | piece s hne hbody =>
    rw [exponentSign?_piece s hbody]
    exact ⟨fun _ => flat_unbroken (unbroken_sign_append s hne hbody), nofun⟩
  | @exponent s n mark op ds hmark hop hne hdigits =>
    have hds : ∀ c ∈ ds, IsNumeric c := fun c hc => .body (isBody_of_isDigit (hdigits c hc))
    rw [exponentSign?_exponent s n hmark hop]
    refine ⟨nofun, ?_⟩
    rintro _ _ ⟨⟩
    rw [flat_exponent s n hmark hop hne hdigits, numberOf_of_isNumeric hds]

theorem value_of_float?_exponents : value "-1.5E2" = Scalar.numberOf "-1.5E2" ∧
    value "2e-3" = 0.0 - Scalar.numberOf "3" := by
  have hunsigned : float? "-1.5E2".toList = some (-150.0) := by decide +kernel
  have hsigned : float? "2e-3".toList = some 0.002 := by decide +kernel
  exact ⟨(value_of_float? hunsigned).1 rfl, (value_of_float? hsigned).2 .sub ['3'] rfl⟩

/-- A number with a sign in its exponent does not evaluate to what it is coerced to. -/
theorem value_misses_number : Scalar.numberOf "1e-5" = 0.00001 ∧ value "1e-5" = -5.0 ∧
    value "1e-5" ≠ Scalar.numberOf "1e-5" := by
  decide +kernel

end Values

end HandlerScript.Expression
