import HandlerScript.Proofs.Condition.Comparisons
import HandlerScript.Proofs.Template.Division

/-! Absent references are false, and zero.

    A reference to nothing stays as it is written. It is an operand, since a name has no blank in it and
    the brace at its front is no letter. Alone it is recognized by its braces and counts as false; beside
    a comparison of numbers it is a text that is no numeral and counts as zero. -/

namespace HandlerScript

namespace Template

/-- A text whose tokens refer to nothing stays as it is. -/
theorem fill_of_unresolved {lookup? : List Char → Option (List Char)} {cs : List Char}
    (h : ∀ inner, .token inner ∈ pieces cs → lookup? inner = none) : fill lookup? cs = cs := by
  have hfilled : ∀ p ∈ pieces cs, p.filled lookup? = p.written := by
    intro p hp
    cases p with
    | char c => rfl
    | token inner => rw [Piece.filled, h inner hp, Option.getD_none]
  rw [fill, List.flatMap_congr hfilled, (divides_pieces cs).written]

/-- A token with no other opening brace around it is the only one. -/
theorem eq_of_mem_pieces {a b inner name : List Char} (ha : '{' ∉ a) (hb : '{' ∉ b)
    (hname : braces name = []) (hmem : .token inner ∈ pieces (a ++ '{' :: (name ++ '}' :: b))) :
    inner = name := by
  induction a with
  | nil =>
    rw [List.nil_append, pieces_token hname, pieces_plain hb] at hmem
    simpa using hmem
  | cons c a ih =>
    rw [List.mem_cons, not_or] at ha
    rw [List.cons_append, pieces_plain_cons (Ne.symm ha.1), List.mem_cons] at hmem
    exact ih ha.2 (hmem.resolve_left nofun)

/-- The inside of a pair of braces. -/
theorem braced?_token {inner : List Char} (h : braces inner = []) :
    braced? ('{' :: (inner ++ ['}'])) = some inner := by
  have htrimmed : Text.trimmed ('{' :: (inner ++ ['}'])) = '{' :: (inner ++ ['}']) := by
    rw [Text.trimmed_cons_of_not rfl]
    exact congrArg _ (List.rdropWhile_concat_neg _ _ _ (by decide))
  have hinner : ∀ c ∈ inner, (c != '{' && c != '}') = true := by
    intro c hc
    obtain ⟨hopen, hclose⟩ := isBrace_eq_false_iff.1 (braces_eq_nil_iff.1 h c hc)
    simp [hopen, hclose]
  unfold braced?
  simp only [htrimmed, List.span_eq_takeWhile_dropWhile]
  rw [List.takeWhile_append_of_pos hinner, List.dropWhile_append_of_pos hinner]
  simp

end Template

namespace Condition

open Template

/-- A reference to a variable or a widget property. -/
def reference (name : String) : String := "\x7b" ++ name ++ "\x7d"

/-- A name of a variable, or of a widget and its property. -/
def IsName (cs : List Char) : Prop :=
  ∀ c ∈ cs, c.isAlphanum = true ∨ c = '_' ∨ c = '.'

section Reference

variable {name : String}

theorem toList_reference (name : String) : (reference name).toList = '{' :: (name.toList ++ ['}']) := by
  simp [reference]

variable (h : IsName name.toList)
include h

theorem IsName.not_mem {c : Char} (hc : c.isAlphanum = false) (hmarks : c ∉ ['_', '.']) :
    c ∉ name.toList := by
  intro hmem
  rcases h c hmem with halpha | rfl | rfl
  · rw [hc] at halpha
    cases halpha
  · exact hmarks (by decide)
  · exact hmarks (by decide)

theorem IsName.mem_reference {c : Char} (hc : c ∈ (reference name).toList) :
    c.isAlphanum = true ∨ c ∈ ['_', '.', '{', '}'] := by
  rw [toList_reference, List.mem_cons, List.mem_append, List.mem_singleton] at hc
  rcases hc with rfl | hc | rfl
  · exact .inr (by decide)
  · exact (h c hc).imp_right (by rintro (rfl | rfl) <;> decide)
  · exact .inr (by decide)

theorem IsName.not_mem_reference {c : Char} (hc : c.isAlphanum = false)
    (hmarks : c ∉ ['_', '.', '{', '}']) : c ∉ (reference name).toList := by
  intro hmem
  rcases h.mem_reference hmem with halpha | hmark
  · rw [hc] at halpha
    cases halpha
  · exact hmarks hmark

theorem IsName.braces : braces name.toList = [] := by
  refine braces_eq_nil_iff.2 fun c hc => isBrace_eq_false_iff.2 ⟨?_, ?_⟩
  · rintro rfl
    exact h.not_mem rfl (by decide) hc
  · rintro rfl
    exact h.not_mem rfl (by decide) hc

theorem IsName.isBareToken : isBareToken (reference name).toList = true := by
  have hdata : ∀ c ∈ name.toList, isDataChar c = false := by
    intro c hc
    rw [Bool.eq_false_iff]
    intro hdata
    simp only [isDataChar, Bool.or_eq_true, beq_iff_eq, or_assoc] at hdata
    rcases hdata with rfl | rfl | rfl | rfl | rfl | rfl | rfl | rfl <;>
      exact h.not_mem rfl (by decide) hc
  rw [Template.isBareToken, toList_reference, braced?_token h.braces]
  simpa [isReference] using hdata

/-- A reference can stand beside a comparison. -/
theorem IsName.isOperand : IsOperand (reference name).toList where
  plain c hmem hc := by
    simp only [List.mem_cons, List.not_mem_nil, or_false] at hc
    rcases hc with rfl | rfl | rfl | rfl | rfl | rfl <;>
      exact h.not_mem_reference rfl (by decide) hmem
  closesQuotes := closesQuotes_of_not_mem (h.not_mem_reference rfl (by decide))
    (h.not_mem_reference rfl (by decide))
  no_word := by
    have hblank : ∀ c ∈ (reference name).toList, Text.isBlank c = false := by
      intro c hc
      rcases h.mem_reference hc with halpha | hmark
      · exact Text.isBlank_of_isAlphanum halpha
      · simp only [List.mem_cons, List.not_mem_nil, or_false] at hmark
        rcases hmark with rfl | rfl | rfl | rfl <;> rfl
    have hopen : '{' ∈ (reference name).toList := by
      rw [toList_reference]
      exact List.mem_cons_self
    exact no_operator_of_mem hblank hopen rfl

/-- A reference is no numeral. -/
theorem IsName.numberOf : Scalar.numberOf (String.ofList (unquote (reference name).toList)) =
    Scalar.numberOf "0" := by
  have hunquote : unquote (reference name).toList = Text.trimmed (reference name).toList :=
    unquote_of_not_mem (h.not_mem_reference rfl (by decide)) (h.not_mem_reference rfl (by decide))
  rw [hunquote, Scalar.numberOf, String.toList_ofList, Text.trimmed_trimmed, toList_reference,
    Text.trimmed_cons_of_not rfl]
  rfl

/-- A reference that stayed as it was written is false. -/
theorem IsName.holdsText : holdsText (reference name) = false := by
  rw [← String.ofList_toList (s := reference name), h.isOperand.holdsText_alone, h.isBareToken]
  rfl

theorem IsName.holdsText_negated : Condition.holdsText ("!" ++ reference name) = true := by
  have hchars : "!" ++ reference name = String.ofList ('!' :: (reference name).toList) := by
    rw [← String.toList_inj]
    simp
  rw [hchars, h.isOperand.holdsText_negated, String.ofList_toList, h.holdsText]
  rfl

end Reference

/-- A condition without references is read as it is written. -/
theorem holds_plain (s : Scope) {text : String} (h : '{' ∉ text.toList) :
    holds s text = holdsText text := by
  rw [holds, s.resolve_plain h]

section Absent

variable {s : Scope} {name : String} (hname : IsName name.toList)
  (habsent : s.lookup? name.toList = none)
include hname habsent

/-- A condition with one absent reference in it is read as it is written. -/
theorem holds_absent_reference {text : String} {a b : List Char}
    (htext : text.toList = a ++ '{' :: (name.toList ++ '}' :: b)) (ha : '{' ∉ a) (hb : '{' ∉ b) :
    holds s text = holdsText text := by
  have hunresolved : ∀ inner, .token inner ∈ pieces text.toList → s.lookup? inner = none := by
    intro inner hmem
    rw [htext] at hmem
    rw [eq_of_mem_pieces ha hb hname.braces hmem, habsent]
  rw [holds, Scope.resolve, fill_of_unresolved hunresolved, String.ofList_toList]

end Absent

section Order

variable {op : Comparison} {mark : List Char}

/-- A comparison of order reads its operands as numbers. -/
theorem Comparison.between_congr (hequal : op ≠ .equal) (hunequal : op ≠ .unequal)
    {l r l' r' : List Char}
    (hl : Scalar.numberOf (String.ofList l) = Scalar.numberOf (String.ofList l'))
    (hr : Scalar.numberOf (String.ofList r) = Scalar.numberOf (String.ofList r')) :
    op.between l r = op.between l' r' := by
  cases op with
  | equal => exact absurd rfl hequal
  | unequal => exact absurd rfl hunequal
  | _ => simp only [Comparison.between, hl, hr]

theorem Comparison.Spelled.no_brace (h : op.Spelled mark) : '{' ∉ mark := by
  rcases h with rfl | rfl | hword
  · cases op <;> decide
  · cases op <;> decide
  · exact fun hmem => not_isOperator_of_mem hmem rfl (Comparison.isOperator_word hword)

end Order

theorem isPlain_zero : IsPlain "0".toList where
  plain := List.all_iff_forall_prop.1 (by decide)
  no_word := by decide

/-- A reference to nothing is false, its negation is true, and it is zero on either side of a comparison
    of order, however the comparison is spelled. -/
theorem holds_absent (s : Scope) (name : String) (hname : IsName name.toList)
    (habsent : s.lookup? name.toList = none) :
    holds s (reference name) = false ∧ holds s ("!" ++ reference name) = true ∧
    ∀ (op : Comparison) (mark n : String), op ≠ .equal → op ≠ .unequal → op.Spelled mark.toList →
      IsPlain n.toList →
      holds s (reference name ++ " " ++ mark ++ " " ++ n) =
        holds s ("0" ++ " " ++ mark ++ " " ++ n) ∧
      holds s (n ++ " " ++ mark ++ " " ++ reference name) =
        holds s (n ++ " " ++ mark ++ " " ++ "0") := by
  refine ⟨?_, ?_, fun op mark n hequal hunequal hmark hn => ?_⟩
  · rw [holds_absent_reference hname habsent (a := []) (b := []) (toList_reference name) nofun nofun,
      hname.holdsText]
  · rw [holds_absent_reference hname habsent (a := ['!']) (b := []) (by simp [toList_reference])
      (by decide) nofun, hname.holdsText_negated]
  · have hfront : '{' ∉ n.toList ++ ' ' :: (mark.toList ++ [' ']) := by
      simp [hmark.no_brace, hn.not_mem]
    have hback : '{' ∉ ' ' :: (mark.toList ++ ' ' :: n.toList) := by
      simp [hmark.no_brace, hn.not_mem]
    constructor
    · rw [holds_absent_reference hname habsent (a := []) (by simp [toList_reference]) nofun hback,
        holds_plain s (by simp [hmark.no_brace, hn.not_mem]), hname.isOperand.holdsText hn.isOperand hmark,
        isPlain_zero.isOperand.holdsText hn.isOperand hmark]
      exact Comparison.between_congr hequal hunequal hname.numberOf rfl
    · rw [holds_absent_reference hname habsent (b := []) (by simp [toList_reference]) hfront nofun,
        holds_plain s (by simp [hmark.no_brace, hn.not_mem]), hn.isOperand.holdsText hname.isOperand hmark,
        hn.isOperand.holdsText isPlain_zero.isOperand hmark]
      exact Comparison.between_congr hequal hunequal rfl hname.numberOf

/-- A variable is no widget, so it has no property. -/
theorem holds_absent_property :
    Scope.nested.lookup? "x.Text".toList = none ∧
    holds .nested (reference "x.Text") = false ∧ holds .nested ("!" ++ reference "x.Text") = true ∧
    holds .nested (reference "x.Text" ++ " " ++ "&gt;=" ++ " " ++ " -1.5") =
      holds .nested ("0" ++ " " ++ "&gt;=" ++ " " ++ " -1.5") ∧
    holds .nested ("12 hours" ++ " " ++ "Lt" ++ " " ++ reference "x.Text") =
      holds .nested ("12 hours" ++ " " ++ "Lt" ++ " " ++ "0") := by
  have hname : IsName "x.Text".toList := List.all_iff_forall_prop.1 (by decide)
  have habsent : Scope.nested.lookup? "x.Text".toList = none := by decide
  have hescaped : Comparison.atLeast.Spelled "&gt;=".toList := .inr (.inl (by decide))
  have hword : Comparison.less.Spelled "Lt".toList := .inr (.inr (by decide))
  have hnumber : IsPlain " -1.5".toList :=
    ⟨List.all_iff_forall_prop.1 (by decide), by decide⟩
  have htext : IsPlain "12 hours".toList :=
    ⟨List.all_iff_forall_prop.1 (by decide), by decide⟩
  obtain ⟨halone, hnegated, horder⟩ := holds_absent _ _ hname habsent
  exact ⟨habsent, halone, hnegated, (horder .atLeast _ _ nofun nofun hescaped hnumber).1,
    (horder .less _ _ nofun nofun hword htext).2⟩

end Condition

end HandlerScript
