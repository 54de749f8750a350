import HandlerScript.Proofs.Condition.AbsentReferences
import HandlerScript.Proofs.Number.Texts
import HandlerScript.Proofs.Number.Zero
import HandlerScript.Proofs.Run.Leaf
import HandlerScript.Proofs.Table

/-! Truth of values and truth of texts.

    A condition that is one reference is decided on the text of the value, `Toggle` negates the truth of
    the value itself. Texts of truth values and numbers are plain, so that normalizing and cutting keep
    them, and all of zero that they show is the text `0`. The two truths agree for every value but one:
    negative zero is false, and its text `-0` counts as true. -/

namespace HandlerScript

open Condition (IsPlain IsOperator reference)

/-! ### Texts of scalars -/

section Texts

variable {cs : List Char} {c : Char}

/-- A text with a digit other than zero counts as true. -/
theorem Scalar.textTruth_of_digit (hc : c ∈ cs) (hdigit : Decimal.isDigit c = true) (hzero : c ≠ '0') :
    textTruth (String.ofList cs) = true := by
  obtain ⟨hblank, hletter⟩ := Decimal.class_of_isDigit hdigit
  have hmem : c ∈ Text.trimmed cs := Text.mem_trimmed hc hblank
  have hlist : ∀ {text : String}, String.ofList (Text.trimmed cs) = text → c ∈ text.toList := by
    rintro _ rfl
    rwa [String.toList_ofList]
  have hempty : String.ofList (Text.trimmed cs) ≠ "" := fun heq => List.not_mem_nil (hlist heq)
  have hother : String.ofList (Text.trimmed cs) ≠ "0" := fun heq =>
    hzero (List.mem_singleton.1 (hlist heq))
  have hfalse : Text.sameLetters (String.ofList (Text.trimmed cs)) "false" = false := by
    rw [Bool.eq_false_iff, Ne, Text.sameLetters_iff]
    intro hlower
    have halpha := Text.isAlpha_of_lower (by decide) hlower c hmem
    rw [hletter] at halpha
    cases halpha
  simp only [textTruth, Text.trim, String.toList_ofList, hfalse, Bool.or_false, Bool.not_eq_true',
    Bool.or_eq_false_iff, beq_eq_false_iff_ne]
  exact ⟨by simpa using hempty, hother⟩

/-- A text of digits, points and signs is plain. -/
theorem isPlain_of_numeral (h : ∀ c ∈ cs, Decimal.isDigit c = true ∨ c = '.' ∨ c = '-') :
    IsPlain cs := by
  have hclass : ∀ c ∈ cs, Text.isBlank c = false ∧ c.isAlpha = false := by
    intro c hc
    rcases h c hc with hdigit | rfl | rfl
    · exact Decimal.class_of_isDigit hdigit
    · exact ⟨rfl, rfl⟩
    · exact ⟨rfl, rfl⟩
  refine ⟨fun c hc hmark => ?_, ?_⟩
  · rcases h c hc with hdigit | rfl | rfl
    · simp only [List.mem_cons, List.not_mem_nil, or_false] at hmark
      rcases hmark with rfl | rfl | rfl | rfl | rfl | rfl | rfl | rfl | rfl | rfl <;> cases hdigit
    · exact absurd hmark (by decide)
    · exact absurd hmark (by decide)
  · cases cs with
    | nil => decide
    | cons c cs =>
      exact Condition.no_operator_of_mem (fun d hd => (hclass d hd).1) List.mem_cons_self
        (hclass c List.mem_cons_self).2

end Texts

/-! ### The texts of numbers -/

namespace Decimal

section Numbers

variable {cs : List Char} {c : Char} (negative : Bool)

theorem mem_signed (h : c ∈ cs) : c ∈ signed negative cs := by
  cases negative with
  | false => exact h
  | true => exact List.mem_cons_of_mem _ h

theorem isPlain_signed (h : ∀ c ∈ cs, isDigit c = true ∨ c = '.') : IsPlain (signed negative cs) := by
  refine isPlain_of_numeral fun c hc => ?_
  cases negative with
  | false => exact (h c hc).imp_right .inl
  | true =>
    rcases List.mem_cons.1 hc with rfl | hc
    · exact .inr (.inr rfl)
    · exact (h c hc).imp_right .inl

theorem Written.isPlain {parts : Binary64.Parts} (h : Written parts cs) : IsPlain cs := by
  cases h with
  | nan => exact ⟨List.all_iff_forall_prop.1 (by decide), by decide⟩
  | infinite negative =>
    cases negative <;> exact ⟨List.all_iff_forall_prop.1 (by decide), by decide⟩
  | zero negative exponent => exact isPlain_signed negative (List.forall_mem_singleton.2 (.inl rfl))
  | finite negative exponent hne hchars hdigit => exact isPlain_signed negative hchars

/-- The text of a number counts as true if it is not the text of positive zero. -/
theorem Written.textTruth {parts : Binary64.Parts} (h : Written parts cs) :
    Scalar.textTruth (String.ofList cs) = true ↔ ∀ exponent, parts ≠ .finite false 0 exponent := by
  cases h with
  | nan => exact ⟨fun _ _ => nofun, fun _ => by decide⟩
  | infinite negative =>
    refine ⟨fun _ _ => nofun, fun _ => ?_⟩
    cases negative <;> decide
  | zero negative exponent =>
    cases negative with
    | false =>
      have hfalse : Scalar.textTruth (String.ofList (signed false ['0'])) = false := by decide
      exact ⟨fun htrue => absurd (hfalse.symm.trans htrue) nofun, fun h => absurd rfl (h exponent)⟩
    | true => exact ⟨fun _ _ => nofun, fun _ => by decide⟩
  | finite negative exponent hne hchars hdigit =>
    obtain ⟨c, hc, hdigit, hzero⟩ := hdigit
    constructor
    · rintro - _ ⟨⟩
      exact hne rfl
    · exact fun _ => Scalar.textTruth_of_digit (mem_signed negative hc) hdigit hzero

end Numbers

end Decimal

/-! ### The text of a scalar -/

namespace Scalar

/-- Only texts can have braces, quotes or operators in them. -/
theorem isPlain_text {value : Scalar} (h : ∀ text, value = .str text → IsPlain text.toList) :
    IsPlain value.text.toList := by
  cases value with
  | bool b =>
    cases b <;> exact ⟨List.all_iff_forall_prop.1 (by decide), by decide⟩
  | int n =>
    rw [text, Decimal.intText, String.toList_ofList, Decimal.intDigits_eq]
    exact Decimal.isPlain_signed _ fun c hc => .inl (Decimal.isDigit_of_mem_digits c hc)
  | float x =>
    rw [text, Decimal.plainText, String.toList_ofList]
    exact (Decimal.written_plain x).isPlain
  | str t => exact h t rfl

theorem textTruth_int (n : Int64) : textTruth (Decimal.intText n.toInt) = (n != 0) := by
  by_cases hn : n = 0
  · rw [hn]
    decide +kernel
  · have hne : n.toInt.natAbs ≠ 0 := fun habs =>
      hn (Int64.toInt_inj.1 (Int.natAbs_eq_zero.1 habs))
    obtain ⟨c, hc, hzero⟩ := Decimal.exists_digit hne
    rw [bne_iff_ne.2 hn, Decimal.intText, Decimal.intDigits_eq]
    exact textTruth_of_digit (Decimal.mem_signed _ hc) (Decimal.isDigit_of_mem_digits c hc) hzero

/-- A number other than negative zero is equal to zero if its text counts as false. -/
theorem textTruth_float {x : Float} (h : x ≠ -0.0) : textTruth (Decimal.plainText x) = (x != 0.0) := by
  have hzero : (x == 0.0) = true ↔ ∃ exponent, Binary64.parts x = .finite false 0 exponent := by
    rw [Binary64.beq_zero_iff, Bool.exists_bool, or_iff_left]
    rintro ⟨exponent, hparts⟩
    exact h (Binary64.eq_neg_zero hparts)
  rw [bne, Bool.eq_iff_iff, Bool.not_eq_true', ← Bool.not_eq_true, hzero, not_exists]
  exact (Decimal.written_plain x).textTruth

/-- The truth of a scalar is the truth of its text, negative zero apart. -/
theorem textTruth_text_eq_iff (value : Scalar) :
    textTruth value.text = value.truth ↔ value ≠ .float (-0.0) := by
  constructor
  · rintro heq rfl
    have htext : textTruth (text (.float (-0.0))) = true := by decide
    have hvalue : truth (.float (-0.0)) = false := by decide
    rw [htext, hvalue] at heq
    cases heq
  · intro hne
    cases value with
    | bool b => cases b <;> decide
    | int n => exact textTruth_int n
    | float x => exact textTruth_float fun hx => hne (congrArg _ hx)
    | str t => rfl

end Scalar

/-! ### References to variables -/

/-- A name that can stand in braces and that is no property of a widget. -/
structure IsVariable (name : String) : Prop where
  tidy : Text.Tidy name
  braces : Template.braces name.toList = []
  isReference : Template.isReference name.toList = true
  simple : '.' ∉ name.toList

section Variables

variable {name : String} {value : Scalar} (h : IsVariable name)
include h

theorem IsVariable.lookup? (s : Scope) :
    s.lookup? name.toList = (s.store.get? name).map (·.text.toList) := by
  have htrimmed : Text.trimmed name.toList = name.toList := by
    rw [← String.toList_inj.2 h.tidy.2, Text.trim, String.toList_ofList, Text.trimmed_trimmed]
  have hempty : name.toList.isEmpty = false := by
    simpa using h.tidy.1
  have hproperty : s.property? name.toList = none := by
    have hnodot : ∀ c ∈ name.toList, (c != '.') = true := fun c hc =>
      bne_iff_ne.2 fun hdot => h.simple (hdot ▸ hc)
    rw [Scope.property?, List.span_eq_takeWhile_dropWhile, List.dropWhile_eq_nil_iff.2 hnodot]
  simp only [Scope.lookup?, h.isReference, htrimmed, hempty, hproperty, String.ofList_toList,
    Bool.not_true, Bool.false_eq_true, if_false]

theorem IsVariable.resolve {s : Scope} (hstored : s.store.get? name = some value) :
    s.resolve (reference name) = value.text := by
  have hpieces : Template.pieces (reference name).toList = [.token name.toList] := by
    rw [Condition.toList_reference]
    exact Template.pieces_token h.braces []
  rw [Scope.resolve, Template.fill, hpieces, List.flatMap_singleton, Template.Piece.filled, h.lookup?,
    hstored, Option.map_some, Option.getD_some, String.ofList_toList]

/-- A condition that is one reference is decided on the text of the value. -/
theorem IsVariable.holds {s : Scope} (hstored : s.store.get? name = some value)
    (hplain : ∀ text, value = .str text → IsPlain text.toList) :
    Condition.holds s (reference name) = Scalar.textTruth value.text := by
  rw [Condition.holds, h.resolve hstored, ← String.ofList_toList (s := value.text)]
  exact (Scalar.isPlain_text hplain).holdsText

/-- `Toggle` negates the truth of the value. -/
theorem IsVariable.execute_toggle {p : Program} {sender : Option String} {w : World} {n : Node}
    (htag : n.hasTag "Toggle" = true) (hvar : n.attrOf? ["var", "name"] = some name)
    (hstored : w.store.get? name = some value) (depth : Nat) :
    execute p (depth + 1) sender n w = .done (w.set name (.bool !value.truth)) := by
  have hopen : '{' ∉ name.toList := fun hmem => by
    cases Template.braces_eq_nil_iff.1 h.braces _ hmem
  have htarget : (w.scope sender).target? n = some name :=
    Scope.target?_plain _ hvar hopen (Text.nonBlank?_of_tidy h.tidy)
  have hstored' : (w.scope sender).store.get? name = some value := hstored
  have heffect : Effect.toggle (w.scope sender) n = .assign name (.bool !value.truth) := by
    simp only [Effect.toggle, Effect.onTarget, htarget, hstored', Option.map_some, Option.getD_some]
  rw [execute_tagged htag rfl Command.noConfusion]
  exact congrArg w.perform heffect

end Variables

/-- A condition on a variable alone and a `Toggle` of it go by the same truth, unless the variable is
    negative zero: the condition goes by the text of the value, and `-0` counts as true. -/
theorem condition_truth_of_variable (p : Program) (depth : Nat) (sender : Option String) (w : World)
    {n : Node} {name : String} {value : Scalar} (hname : IsVariable name)
    (hstored : w.store.get? name = some value)
    (hplain : ∀ text, value = .str text → IsPlain text.toList)
    (htag : n.hasTag "Toggle" = true) (hvar : n.attrOf? ["var", "name"] = some name) :
    Condition.holds (w.scope sender) (reference name) = Scalar.textTruth value.text ∧
    (Condition.holds (w.scope sender) (reference name) = value.truth ↔ value ≠ .float (-0.0)) ∧
    ∃ w', execute p (depth + 1) sender n w = .done w' ∧
      w'.store.get? name = some (.bool !value.truth) := by
  have hholds := hname.holds (s := w.scope sender) hstored hplain
  refine ⟨hholds, ?_, _, hname.execute_toggle htag hvar hstored depth, ?_⟩
  · rw [hholds, value.textTruth_text_eq_iff]
  · exact (Table.get?_insert _ _ _ name).trans (if_pos rfl)

/-- Negates a variable. -/
def Node.toggling (name : String) : Node where
  tag := "Toggle"
  attributes := Table.ofList [("var", name)]

/-- A world with two numbers in it. -/
def World.numbered : World where
  store := { vars := Table.ofList [("half", .float 0.5), ("zero", .float (-0.0))] }

/-- A fraction is true either way. -/
theorem condition_truth_of_variable_half :
    Condition.holds (World.numbered.scope none) (reference "half") = true ∧
    ∃ w', execute {} 1 none (.toggling "half") .numbered = .done w' ∧
      w'.store.get? "half" = some (.bool false) := by
  have hname : IsVariable "half" :=
    ⟨by decide, by decide, by decide, by decide⟩
  have htext : Scalar.textTruth (Scalar.text (.float 0.5)) = true := by decide +kernel
  have htruth : Scalar.truth (.float 0.5) = true := by decide
  have hstored : World.numbered.store.get? "half" = some (.float 0.5) := rfl
  have htag : (Node.toggling "half").hasTag "Toggle" = true := by decide
  have hvar : (Node.toggling "half").attrOf? ["var", "name"] = some "half" := by decide
  obtain ⟨hholds, -, w', hrun, htoggled⟩ :=
    condition_truth_of_variable {} 0 none .numbered hname hstored nofun htag hvar
  rw [htruth] at htoggled
  exact ⟨hholds.trans htext, w', hrun, htoggled⟩

/-- A condition on a variable and the truth of its value do not always agree. -/
theorem condition_misses_truth_of_zero :
    ¬ ∀ (s : Scope) (name : String) (value : Scalar), IsVariable name →
      s.store.get? name = some value → (∀ text, value = .str text → IsPlain text.toList) →
      Condition.holds s (reference name) = value.truth := by
  intro h
  have hname : IsVariable "zero" :=
    ⟨by decide, by decide, by decide, by decide⟩
  have hagree := h (World.numbered.scope none) "zero" (.float (-0.0)) hname rfl nofun
  have hcondition : Condition.holds (World.numbered.scope none) (reference "zero") = true := by
    decide
  have htruth : Scalar.truth (.float (-0.0)) = false := by decide
  rw [hcondition, htruth] at hagree
  cases hagree

end HandlerScript
