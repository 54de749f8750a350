import HandlerScript.Proofs.Condition.Operands
import Mathlib.Data.Bool.AllAny

/-! Comparisons are mirrored and complementary.

    The symbols of the six comparisons are looked for one after the other, in the whole text. Operands
    without operator characters leave one symbol to find: a symbol that is looked for earlier has some
    character more often than the text. So the text is cut at the operator in the middle, however it is
    spelled, and the two sides without their quotes are compared, as texts or as numbers. -/

namespace HandlerScript.Condition

inductive Comparison where
  | equal
  | unequal
  | atLeast
  | atMost
  | greater
  | less

namespace Comparison

def symbol : Comparison → List Char
  | equal => ['=', '=']
  | unequal => ['!', '=']
  | atLeast => ['>', '=']
  | atMost => ['<', '=']
  | greater => ['>']
  | less => ['<']

def words : Comparison → List String
  | equal => ["equals", "eq"]
  | unequal => ["not", "ne"]
  | atLeast => ["gte"]
  | atMost => ["lte"]
  | greater => ["gt"]
  | less => ["lt"]

/-- The ways to write a comparison: its symbol, the symbol with references to its characters, or a word
    in any letter case. -/
def Spelled (op : Comparison) (mark : List Char) : Prop :=
  mark = op.symbol ∨ mark = escape op.symbol ∨ Text.lower (String.ofList mark) ∈ op.words

/-- The comparison that holds with the operands in the other order. -/
def mirrored : Comparison → Comparison
  | equal => equal
  | unequal => unequal
  | atLeast => atMost
  | atMost => atLeast
  | greater => less
  | less => greater

/-- What a comparison says of two operands: equality of texts, or order of numbers. -/
def between (op : Comparison) (l r : List Char) : Bool :=
  let x := Scalar.numberOf (String.ofList l)
  let y := Scalar.numberOf (String.ofList r)
  match op with
  | equal => l == r
  | unequal => l != r
  | atLeast => decide (x ≥ y)
  | atMost => decide (x ≤ y)
  | greater => decide (x > y)
  | less => decide (x < y)

theorem between_mirrored (op : Comparison) (l r : List Char) :
    op.mirrored.between r l = op.between l r := by
  cases op with
  | equal => exact BEq.comm
  | unequal => exact bne_comm
  | _ => rfl

end Comparison

/-! ### Cutting at the operator -/

section Cut

variable {l r : List Char} (op : Comparison)

/-- Operator characters stand in the operator only. -/
structure Beside (l r : List Char) : Prop where
  left : ∀ c ∈ ['!', '=', '<', '>'], c ∉ l
  right : ∀ c ∈ ['!', '=', '<', '>'], c ∉ r

variable (h : Beside l r)
include h

theorem Beside.cut? : Text.cut? op.symbol (l ++ (op.symbol ++ r)) = some (l, r) := by
  cases op <;> exact Text.cut?_append (h.left _ (by decide)) _ r

/-- A mark that has some operator character more often than the operator is not found. -/
theorem Beside.cut?_eq_none {mark : List Char} {c : Char} (hc : c ∈ ['!', '=', '<', '>'])
    (hcount : op.symbol.count c < mark.count c) : Text.cut? mark (l ++ (op.symbol ++ r)) = none := by
  refine Text.cut?_of_not_infix fun hphrase => ?_
  have hle : mark.count c ≤ (l ++ (op.symbol ++ r)).count c := hphrase.sublist.count_le c
  rw [List.count_append, List.count_append, List.count_eq_zero_of_not_mem (h.left c hc),
    List.count_eq_zero_of_not_mem (h.right c hc)] at hle
  omega

theorem Beside.compare : compare (l ++ (op.symbol ++ r)) = op.between (unquote l) (unquote r) := by
  have hcut := h.cut? op
  have hnone : ∀ (mark : List Char) (c : Char), c ∈ ['!', '=', '<', '>'] →
      op.symbol.count c < mark.count c → Text.cut? mark (l ++ (op.symbol ++ r)) = none :=
    fun mark c hc hcount => h.cut?_eq_none op hc hcount
  unfold Condition.compare
  -- the symbols that are looked for earlier are none of the text, each for the character it has too often
  cases op with
  | equal =>
    rw [show Text.cut? ['=', '='] _ = _ from hcut]
    rfl
  | unequal =>
    rw [hnone ['=', '='] '=' (by decide) (by decide), show Text.cut? ['!', '='] _ = _ from hcut]
    rfl
  | atLeast =>
    rw [hnone ['=', '='] '=' (by decide) (by decide), hnone ['!', '='] '!' (by decide) (by decide),
      show Text.cut? ['>', '='] _ = _ from hcut]
    rfl
  | atMost =>
    rw [hnone ['=', '='] '=' (by decide) (by decide), hnone ['!', '='] '!' (by decide) (by decide),
      hnone ['>', '='] '>' (by decide) (by decide), show Text.cut? ['<', '='] _ = _ from hcut]
    rfl
  | greater =>
    rw [hnone ['=', '='] '=' (by decide) (by decide), hnone ['!', '='] '=' (by decide) (by decide),
      hnone ['>', '='] '=' (by decide) (by decide), hnone ['<', '='] '=' (by decide) (by decide),
      show Text.cut? ['>'] _ = _ from hcut]
    rfl
  | less =>
    rw [hnone ['=', '='] '=' (by decide) (by decide), hnone ['!', '='] '=' (by decide) (by decide),
      hnone ['>', '='] '=' (by decide) (by decide), hnone ['<', '='] '=' (by decide) (by decide),
      hnone ['>'] '>' (by decide) (by decide), show Text.cut? ['<'] _ = _ from hcut]
    rfl

end Cut

/-! ### Spelling -/

section Spelling

variable {op : Comparison} {mark cs rest l r : List Char}

theorem Comparison.symbol_mem (op : Comparison) : op.symbol ∈ symbols := by
  cases op <;> decide

theorem Comparison.symbol?_word (h : Text.lower (String.ofList mark) ∈ op.words) :
    symbol? mark = some op.symbol := by
  rw [symbol?]
  cases op <;> simp only [Comparison.words, List.mem_cons, List.not_mem_nil, or_false] at h
  case equal | unequal => rcases h with h | h <;> rw [h] <;> rfl
  all_goals rw [h]; rfl

theorem unescape_append (h : '&' ∉ cs) (rest : List Char) :
    unescape (cs ++ rest) = cs ++ unescape rest := by
  simp only [unescape_eq, replaceAll, references, List.foldl_cons, List.foldl_nil, referenceTo,
    Text.replace_append_of_not_mem h]

theorem Comparison.isOperator_word (h : Text.lower (String.ofList mark) ∈ op.words) :
    IsOperator mark :=
  isOperator_of_symbol?_isSome (by rw [Comparison.symbol?_word h]; rfl)

/-- A reference is restored in front of a text that has none and does not become one. -/
theorem replaceAll_reference {refs : List (Char × List Char)} (h : Distinct refs) {r : Char × List Char}
    (hr : r ∈ refs) (hamp : r.1 ≠ '&') (hrest : '&' ∉ rest) :
    replaceAll refs (referenceTo r.2 ++ rest) = r.1 :: rest := by
  have hnone : '&' ∉ r.1 :: rest := List.not_mem_cons_of_ne_of_not_mem (Ne.symm hamp) hrest
  have hkept : ∀ name new, Text.replace (referenceTo name) new rest = rest := fun name new =>
    Text.replace_of_not_infix fun hphrase => hrest (hphrase.subset List.mem_cons_self)
  induction refs with
  | nil => cases hr
  | cons s refs ih =>
    rw [replaceAll, List.foldl_cons]
    rcases List.mem_cons.1 hr with rfl | hr
    · have hne : referenceTo r.2 ≠ [] := List.cons_ne_nil _ _
      rw [Text.replace_append hne, hkept]
      exact replaceAll_of_none fun t _ hphrase => hnone (hphrase.subset List.mem_cons_self)
    · obtain ⟨-, hsemi⟩ := h.plain s List.mem_cons_self
      obtain ⟨hamp', hsemi'⟩ := h.plain r (List.mem_cons_of_mem s hr)
      have hother : s.2 ≠ r.2 := fun heq =>
        (List.nodup_cons.1 h.names).1 (List.mem_map.2 ⟨r, hr, heq.symm⟩)
      rw [replace_other hsemi hsemi' hamp' hother, hkept]
      exact ih h.tail hr

theorem unescape_escape_symbol (op : Comparison) (hrest : '&' ∉ rest) :
    unescape (escape op.symbol ++ rest) = op.symbol ++ rest := by
  have hmore : '&' ∉ '=' :: rest := List.not_mem_cons_of_ne_of_not_mem (by decide) hrest
  have hgreater : ('>', "gt".toList) ∈ references := by decide
  have hless : ('<', "lt".toList) ∈ references := by decide
  cases op with
  | equal | unequal =>
    refine unescape_of_unescaped (unescaped_of_not_mem List.mem_cons_self ?_)
    simpa [Comparison.symbol, escape, escapeChar] using hrest
  | atLeast => exact replaceAll_reference distinct_references hgreater (by decide) hmore
  | atMost => exact replaceAll_reference distinct_references hless (by decide) hmore
  | greater => exact replaceAll_reference distinct_references hgreater (by decide) hrest
  | less => exact replaceAll_reference distinct_references hless (by decide) hrest

/-- Behind unescaping, a comparison is its symbol or a word for it. -/
theorem Comparison.Spelled.unescape (h : op.Spelled mark) (hrest : '&' ∉ rest) :
    ∃ plain, Spells plain op.symbol ∧ unescape (mark ++ rest) = plain ++ rest := by
  have hkept : '&' ∉ mark → Condition.unescape (mark ++ rest) = mark ++ rest := fun hmark =>
    unescape_of_unescaped (unescaped_of_not_mem List.mem_cons_self (by simp [hmark, hrest]))
  rcases h with rfl | rfl | hword
  · exact ⟨op.symbol, .inl ⟨rfl, op.symbol_mem⟩, hkept (by cases op <;> decide)⟩
  · exact ⟨op.symbol, .inl ⟨rfl, op.symbol_mem⟩, unescape_escape_symbol op hrest⟩
  · exact ⟨mark, .inr (Comparison.symbol?_word hword), hkept fun hmem =>
      not_isOperator_of_mem hmem rfl (Comparison.isOperator_word hword)⟩

/-- However a comparison is spelled, its symbol stands in the normalized condition. -/
theorem IsOperand.normalize (hl : IsOperand l) (hr : IsOperand r) (h : op.Spelled mark) :
    normalize (l ++ ' ' :: (mark ++ ' ' :: r)) = l ++ ' ' :: (op.symbol ++ ' ' :: r) := by
  have hleft : '&' ∉ l ++ [' '] := by simp [hl.not_mem]
  have hright : '&' ∉ ' ' :: r := by simp [hr.not_mem]
  obtain ⟨plain, hspells, hplain⟩ := h.unescape hright
  have hunescape : unescape (l ++ ' ' :: (mark ++ ' ' :: r)) = l ++ ' ' :: (plain ++ ' ' :: r) := by
    rw [← List.singleton_append, ← List.append_assoc, unescape_append hleft, hplain,
      List.append_assoc]
    rfl
  rw [Condition.normalize, hunescape, respellFrom_append_blank hl.closesQuotes rfl, hl.respellFrom,
    hspells.respellFrom rfl, hr.respellFrom]

end Spelling

/-! ### The comparison -/

section Meaning

variable {op : Comparison} {l r : List Char}

theorem trimmed_symbol (op : Comparison) (l r : List Char) :
    Text.trimmed (l ++ (op.symbol ++ r)) =
      l.dropWhile Text.isBlank ++ (op.symbol ++ r.rdropWhile Text.isBlank) := by
  cases op with
  | greater | less => exact Text.trimmed_append_cons rfl l r
  | _ =>
    exact (Text.trimmed_append_cons rfl l _).trans
      (congrArg (l.dropWhile Text.isBlank ++ _ :: ·) (Text.rdropWhile_append_cons rfl [] r))

/-- Blanks around the operands do not matter, and an operator at the front is no negation. -/
theorem Beside.single (h : Beside l r) (op : Comparison) :
    single (l ++ (op.symbol ++ r)) = op.between (unquote l) (unquote r) := by
  have hdropped : Beside (l.dropWhile Text.isBlank) (r.rdropWhile Text.isBlank) :=
    { left := fun c hc hmem => h.left c hc ((List.dropWhile_suffix _).subset hmem)
      right := fun c hc hmem => h.right c hc ((List.rdropWhile_prefix _ _).subset hmem) }
  have hcompared : ∀ rest, Text.trimmed (l ++ (op.symbol ++ r)) = '!' :: rest →
      rest.head? = some '=' := by
    intro rest htrimmed
    rw [trimmed_symbol] at htrimmed
    cases hfront : l.dropWhile Text.isBlank with
    | nil =>
      -- nothing stands in front of the operator, and the one that begins so is the inequality
      rw [hfront] at htrimmed
      cases op <;> cases htrimmed
      rfl
    | cons c front =>
      rw [hfront] at htrimmed
      cases htrimmed
      exact absurd (hfront ▸ List.mem_cons_self) (hdropped.left '!' (by decide))
  rw [single_compared hcompared, trimmed_symbol, hdropped.compare,
    unquote_congr (Text.trimmed_dropWhile l), unquote_congr (Text.trimmed_rdropWhile r)]

theorem toList_spaced (l mark r : String) : (l ++ " " ++ mark ++ " " ++ r).toList =
    l.toList ++ ' ' :: (mark.toList ++ ' ' :: r.toList) := by
  simp

/-- A comparison of two operands, however it is spelled. -/
theorem IsOperand.holdsText {l mark r : String} (hl : IsOperand l.toList) (hr : IsOperand r.toList)
    (h : op.Spelled mark.toList) : holdsText (l ++ " " ++ mark ++ " " ++ r) =
      op.between (unquote l.toList) (unquote r.toList) := by
  have hspaced : Beside (l.toList ++ [' ']) (' ' :: r.toList) :=
    { left := by simp [hl.not_mem]
      right := by simp [hr.not_mem] }
  have hchars : ∀ c ∈ ['&', '|'], c ∉ (l.toList ++ [' ']) ++ (op.symbol ++ ' ' :: r.toList) := by
    cases op <;> simp [hl.not_mem, hr.not_mem, Comparison.symbol]
  have htext : l.toList ++ ' ' :: (op.symbol ++ ' ' :: r.toList) =
      (l.toList ++ [' ']) ++ (op.symbol ++ ' ' :: r.toList) := by
    rw [List.append_assoc, List.singleton_append]
  rw [Condition.holdsText, toList_spaced, hl.normalize hr h, htext,
    meaning_of_not_mem (hchars _ (by decide)) (hchars _ (by decide)), hspaced.single,
    unquote_congr (Text.trimmed_concat rfl _), unquote_congr (Text.trimmed_cons rfl _)]

end Meaning

/-- Two operands are compared as texts for equality and as numbers for order, both without the blanks
    and the one pair of quotes around them, and all spellings of a comparison agree. A comparison is its
    mirror image with the operands exchanged, and inequality is the opposite of equality. -/
theorem holdsText_comparison (l r : String) (hl : IsOperand l.toList) (hr : IsOperand r.toList) :
    (∃ a b, Bare l.toList a ∧ Bare r.toList b ∧
      ∀ (op : Comparison) (mark : String), op.Spelled mark.toList →
        holdsText (l ++ " " ++ mark ++ " " ++ r) = op.between a b) ∧
    (∀ (op : Comparison) (mark mark' : String), op.Spelled mark.toList →
      op.mirrored.Spelled mark'.toList →
      holdsText (l ++ " " ++ mark ++ " " ++ r) = holdsText (r ++ " " ++ mark' ++ " " ++ l)) ∧
    ∀ mark mark' : String, Comparison.equal.Spelled mark.toList →
      Comparison.unequal.Spelled mark'.toList →
      holdsText (l ++ " " ++ mark' ++ " " ++ r) = !holdsText (l ++ " " ++ mark ++ " " ++ r) := by
  refine ⟨⟨unquote l.toList, unquote r.toList, bare_unquote _, bare_unquote _, ?_⟩, ?_, ?_⟩
  · exact fun op mark hmark => hl.holdsText hr hmark
  · intro op mark mark' hmark hmark'
    rw [hl.holdsText hr hmark, hr.holdsText hl hmark', op.between_mirrored]
  · intro mark mark' hmark hmark'
    rw [hl.holdsText hr hmark, hl.holdsText hr hmark']
    rfl

/-- Operands in quotes, with blanks, operator words and quotes of the other kind inside. -/
theorem holdsText_comparison_quoted :
    IsOperand " \"x eq 'y'\"".toList ∧ IsOperand "'10.5 not'".toList ∧
    holdsText (" \"x eq 'y'\"" ++ " " ++ "Equals" ++ " " ++ "'10.5 not'") =
      Comparison.equal.between "x eq 'y'".toList "10.5 not".toList ∧
    holdsText (" \"x eq 'y'\"" ++ " " ++ "NOT" ++ " " ++ "'10.5 not'") =
      (!holdsText (" \"x eq 'y'\"" ++ " " ++ "Equals" ++ " " ++ "'10.5 not'")) ∧
    holdsText (" \"x eq 'y'\"" ++ " " ++ "Gte" ++ " " ++ "'10.5 not'") =
      holdsText ("'10.5 not'" ++ " " ++ "&lt;=" ++ " " ++ " \"x eq 'y'\"") := by
  have hl : IsOperand " \"x eq 'y'\"".toList :=
    { plain := List.all_iff_forall_prop.1 (by decide)
      closesQuotes := by decide
      no_word := by decide }
  have hr : IsOperand "'10.5 not'".toList :=
    { plain := List.all_iff_forall_prop.1 (by decide)
      closesQuotes := by decide
      no_word := by decide }
  have hequals : Comparison.equal.Spelled "Equals".toList := .inr (.inr (by decide))
  have hnot : Comparison.unequal.Spelled "NOT".toList := .inr (.inr (by decide))
  have hgte : Comparison.atLeast.Spelled "Gte".toList := .inr (.inr (by decide))
  have hescaped : Comparison.atMost.Spelled "&lt;=".toList := .inr (.inl (by decide))
  obtain ⟨⟨a, b, ha, hb, hvalue⟩, hmirrored, hopposite⟩ := holdsText_comparison _ _ hl hr
  have hinner : a = "x eq 'y'".toList := ha.unique (.quoted (.inl rfl) (by decide))
  have hinner' : b = "10.5 not".toList := hb.unique (.quoted (.inr rfl) (by decide))
  refine ⟨hl, hr, ?_, hopposite _ _ hequals hnot, hmirrored .atLeast _ _ hgte hescaped⟩
  rw [hvalue .equal _ hequals, hinner, hinner']

end HandlerScript.Condition
