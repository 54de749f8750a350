import HandlerScript.Proofs.Condition.Literals

/-! Conditions are conjunctions of disjunctions of literals.

    A connective stands between two blanks, so respelling makes its symbol of it and goes on with the
    literals one by one. Cutting at the symbols gives the literals back with blanks around them, which
    do not matter to a literal; blanks around a disjunction are blanks around its outer literals. So
    conjunction binds looser than disjunction, and a negation takes in its whole comparison. -/

namespace HandlerScript.Condition

/-! ### Literals and connectives -/

/-- A text that can stand under negations and between connectives. It may begin with a negation itself,
    and operators other than the connectives may stand behind its first word. -/
structure IsAtom (cs : List Char) : Prop where
  no_and : '&' ∉ cs
  no_or : '|' ∉ cs
  closesQuotes : ClosesQuotes cs
  head : cs.head? ≠ some '='
  no_word : ∀ word ∈ words cs, Text.lower (String.ofList word) ∉ ["and", "or"]
  first : ∀ word ∈ firstWord? cs, ¬ IsOperator word

/-- An atom with negations before it. -/
structure Literal where
  negations : Nat
  atom : List Char
  isAtom : IsAtom atom

def Literal.written (l : Literal) : List Char := List.replicate l.negations '!' ++ l.atom

/-- The value of the atom, negated if the number of negations is odd. -/
def Literal.value (l : Literal) : Bool :=
  if l.negations % 2 = 1 then !holdsText (String.ofList l.atom) else holdsText (String.ofList l.atom)

inductive Connective where
  | conjunction
  | disjunction

namespace Connective

def char : Connective → Char
  | conjunction => '&'
  | disjunction => '|'

def word : Connective → String
  | conjunction => "and"
  | disjunction => "or"

/-- The character written twice. -/
def symbol (k : Connective) : List Char := [k.char, k.char]

/-- The ways to write a connective: its symbol, or its word in any letter case. -/
def Spelled (k : Connective) (mark : List Char) : Prop :=
  mark = k.symbol ∨ Text.lower (String.ofList mark) = k.word

end Connective

/-- Texts in a row, one at least, with a mark between blanks from each to the next. -/
inductive Joined (Mark : List Char → Prop) : List (List Char) → List Char → Prop
  | last (text : List Char) : Joined Mark [text] text
  | cons {text mark joined : List Char} {texts : List (List Char)} : Mark mark →
      Joined Mark texts joined → Joined Mark (text :: texts) (text ++ ' ' :: (mark ++ ' ' :: joined))

/-! ### Spelling -/

section Spelling

variable {k : Connective} {mark : List Char}

theorem Connective.symbol_mem (k : Connective) : k.symbol ∈ symbols := by
  cases k <;> decide

theorem Connective.Spelled.spells (h : k.Spelled mark) : Spells mark k.symbol := by
  rcases h with rfl | hword
  · exact .inl ⟨rfl, k.symbol_mem⟩
  · refine .inr ?_
    rw [symbol?, hword]
    cases k <;> rfl

end Spelling

/-! ### Joined texts -/

section Joined

variable {k : Connective} {texts : List (List Char)} {joined : List Char}

theorem Joined.closesQuotes (h : Joined k.Spelled texts joined)
    (htexts : ∀ text ∈ texts, ClosesQuotes text) : ClosesQuotes joined := by
  induction h with
  | last text => exact htexts text List.mem_cons_self
  | cons hmark _ ih =>
    obtain ⟨htext, hrest⟩ := List.forall_mem_cons.1 htexts
    exact (closesQuotes_append_blank htext rfl).2
      ((closesQuotes_append_blank hmark.spells.closesQuotes rfl).2 (ih hrest))

theorem Joined.respell (h : Joined k.Spelled texts joined)
    (htexts : ∀ text ∈ texts, ClosesQuotes text) :
    Joined (· = k.symbol) (texts.map (respellFrom {})) (respellFrom {} joined) := by
  induction h with
  | last text => exact .last _
  | cons hmark _ ih =>
    obtain ⟨htext, hrest⟩ := List.forall_mem_cons.1 htexts
    rw [respellFrom_append_blank htext rfl, hmark.spells.respellFrom rfl]
    exact .cons rfl (ih hrest)

theorem Joined.unescaped (h : Joined k.Spelled texts joined)
    (htexts : ∀ text ∈ texts, Unescaped text) : Unescaped joined := by
  induction h with
  | last text => exact htexts text List.mem_cons_self
  | cons hmark _ ih =>
    obtain ⟨htext, hrest⟩ := List.forall_mem_cons.1 htexts
    have hmark' := unescaped_of_not_mem (by simp) hmark.spells.not_mem
    exact htext.append_space (hmark'.append_space (ih hrest))

theorem Joined.not_mem {c : Char} (hc : c ≠ ' ') (hsymbol : c ∉ k.symbol)
    (h : Joined (· = k.symbol) texts joined) (htexts : ∀ text ∈ texts, c ∉ text) : c ∉ joined := by
  induction h with
  | last text => exact htexts text List.mem_cons_self
  | cons hmark _ ih =>
    obtain ⟨htext, hrest⟩ := List.forall_mem_cons.1 htexts
    simp [hmark, hc, hsymbol, htext, ih hrest]

/-- Cutting joined texts at the symbol gives them back, blanks around them apart. -/
theorem Joined.pieces (h : Joined (· = k.symbol) texts joined)
    (htexts : ∀ text ∈ texts, k.char ∉ text) :
    (Text.piecesAtDouble k.char joined).map Text.trimmed = texts.map Text.trimmed := by
  have hblank : Text.isBlank k.char = false := by cases k <;> rfl
  have hspace : k.char ≠ ' ' := by cases k <;> decide
  induction h with
  | last text =>
    rw [Text.piecesAtDouble_of_not_mem (htexts text List.mem_cons_self)]
  | @cons text mark joined texts hmark _ ih =>
    -- the blank in front of the mark ends the first piece, the one behind it begins the next
    obtain ⟨htext, hrest⟩ := List.forall_mem_cons.1 htexts
    have hpiece : k.char ∉ text ++ [' '] := by simp [htext, hspace]
    have hcut : text ++ ' ' :: (mark ++ ' ' :: joined) =
        (text ++ [' ']) ++ k.char :: k.char :: ' ' :: joined := by
      rw [hmark]
      simp [Connective.symbol]
    rw [hcut, Text.piecesAtDouble_append hpiece, List.map_cons, List.map_cons,
      Text.trimmed_concat rfl, Text.map_trimmed_piecesAtDouble_cons rfl hblank, ih hrest]

end Joined

/-! ### Meaning -/

section Meaning

variable {texts : List (List Char)} {joined cs : List Char}

/-- The meaning of a condition without conjunctions. -/
def alternatives (cs : List Char) : Bool := (Text.piecesAtDouble '|' cs).any single

theorem meaning_eq (cs : List Char) : meaning cs = (Text.piecesAtDouble '&' cs).all alternatives := rfl

theorem any_map_trimmed {p : List Char → Bool} (hp : ∀ cs, p (Text.trimmed cs) = p cs)
    (texts : List (List Char)) : (texts.map Text.trimmed).any p = texts.any p := by
  rw [List.any_map, Function.comp_def, funext hp]

theorem all_map_trimmed {p : List Char → Bool} (hp : ∀ cs, p (Text.trimmed cs) = p cs)
    (texts : List (List Char)) : (texts.map Text.trimmed).all p = texts.all p := by
  rw [List.all_map, Function.comp_def, funext hp]

theorem alternatives_trimmed (cs : List Char) : alternatives (Text.trimmed cs) = alternatives cs := by
  rw [alternatives, ← any_map_trimmed single_trimmed, Text.map_trimmed_piecesAtDouble_trimmed rfl,
    any_map_trimmed single_trimmed, alternatives]

theorem alternatives_joined (h : Joined (· = Connective.disjunction.symbol) texts joined)
    (htexts : ∀ text ∈ texts, '|' ∉ text) : alternatives joined = texts.any single := by
  have hpieces := h.pieces htexts
  rw [Connective.char] at hpieces
  rw [alternatives, ← any_map_trimmed single_trimmed, hpieces, any_map_trimmed single_trimmed]

theorem meaning_joined (h : Joined (· = Connective.conjunction.symbol) texts joined)
    (htexts : ∀ text ∈ texts, '&' ∉ text) : meaning joined = texts.all alternatives := by
  have hpieces := h.pieces htexts
  rw [Connective.char] at hpieces
  rw [meaning_eq, ← all_map_trimmed alternatives_trimmed, hpieces,
    all_map_trimmed alternatives_trimmed]

end Meaning

/-! ### Atoms and literals in their places -/

section Places

variable {k : Connective} {cs word symbol : List Char}

theorem Connective.word_of_symbol? (h : symbol? word = some symbol) (hmem : k.char ∈ symbol) :
    Text.lower (String.ofList word) = k.word := by
  unfold symbol? at h
  split at h <;> cases h <;> cases k <;> first | assumption | simp [Connective.char] at hmem

theorem Connective.char_not_mem_replicate (k : Connective) (n : Nat) :
    k.char ∉ List.replicate n '!' := by
  intro hmem
  have hchar := List.eq_of_mem_replicate hmem
  cases k <;> cases hchar

theorem IsAtom.char_not_mem (h : IsAtom cs) (k : Connective) : k.char ∉ cs := by
  cases k
  · exact h.no_and
  · exact h.no_or

/-- An atom brings no connective of its own. -/
theorem IsAtom.respell_not_mem (h : IsAtom cs) (k : Connective) : k.char ∉ respellFrom {} cs := by
  intro hmem
  rcases mem_respellFrom hmem with hmem | ⟨word, hword, symbol, hsymbol, hmem⟩
  · exact h.char_not_mem k hmem
  · have hlower := Connective.word_of_symbol? hsymbol hmem
    refine h.no_word word hword ?_
    rw [hlower]
    cases k <;> decide

theorem IsAtom.holdsText_eq (h : IsAtom cs) :
    holdsText (String.ofList cs) = single (respellFrom {} cs) := by
  rw [holdsText, String.toList_ofList,
    normalize_of_unescaped (unescaped_of_not_mem List.mem_cons_self h.no_and),
    meaning_of_not_mem (h.respell_not_mem .conjunction) (h.respell_not_mem .disjunction)]

variable (l : Literal)

theorem Literal.closesQuotes : ClosesQuotes l.written := by
  rw [ClosesQuotes, Literal.written, List.foldl_append]
  induction l.negations with
  | zero => exact l.isAtom.closesQuotes
  | succ n ih => exact ih

theorem Literal.respell : respellFrom {} l.written =
    List.replicate l.negations '!' ++ respellFrom {} l.atom :=
  respellFrom_replicate (head?_words_of_firstWord? l.isAtom.first) l.negations

/-- A literal brings no connective of its own. -/
theorem Literal.respell_not_mem (k : Connective) : k.char ∉ respellFrom {} l.written := by
  rw [Literal.respell, List.mem_append, not_or]
  exact ⟨k.char_not_mem_replicate _, l.isAtom.respell_not_mem k⟩

theorem Literal.unescaped : Unescaped l.written := by
  refine unescaped_of_not_mem List.mem_cons_self ?_
  rw [Literal.written, List.mem_append, not_or]
  exact ⟨Connective.conjunction.char_not_mem_replicate _, l.isAtom.no_and⟩

theorem Literal.single_respell : single (respellFrom {} l.written) = l.value := by
  have hhead : (respellFrom {} l.atom).head? ≠ some '=' := by
    rw [head?_respellFrom (head?_words_of_firstWord? l.isAtom.first)]
    exact l.isAtom.head
  rw [Literal.respell, single_replicate hhead, Literal.value, l.isAtom.holdsText_eq]

end Places

/-! ### The whole condition -/

/-- A disjunction of literals as it is written. -/
def IsClause (clause : List Literal) (text : List Char) : Prop :=
  Joined Connective.disjunction.Spelled (clause.map Literal.written) text

section Clauses

variable {clause : List Literal} {text : List Char} {clauses : List (List Literal)}
  {texts : List (List Char)}

theorem IsClause.closesQuotes (h : IsClause clause text) : ClosesQuotes text :=
  Joined.closesQuotes h (by simpa using fun l _ => Literal.closesQuotes l)

theorem IsClause.unescaped (h : IsClause clause text) : Unescaped text :=
  Joined.unescaped h (by simpa using fun l _ => Literal.unescaped l)

theorem IsClause.respell (h : IsClause clause text) : Joined (· = Connective.disjunction.symbol)
    ((clause.map Literal.written).map (respellFrom {})) (respellFrom {} text) :=
  Joined.respell h (by simpa using fun l _ => Literal.closesQuotes l)

theorem respelled_literals_not_mem (k : Connective) (clause : List Literal) :
    ∀ t ∈ (clause.map Literal.written).map (respellFrom {}), k.char ∉ t := by
  simpa using fun l _ => Literal.respell_not_mem l k

/-- No conjunction stands in a disjunction. -/
theorem IsClause.respell_not_mem (h : IsClause clause text) : '&' ∉ respellFrom {} text :=
  h.respell.not_mem (by decide) (by decide) (respelled_literals_not_mem .conjunction clause)

theorem IsClause.alternatives_respell (h : IsClause clause text) :
    alternatives (respellFrom {} text) = clause.any Literal.value := by
  rw [alternatives_joined h.respell (respelled_literals_not_mem .disjunction clause), List.any_map,
    List.any_map]
  simp only [Function.comp_def, Literal.single_respell]

theorem clauses_in_place (h : List.Forall₂ IsClause clauses texts) :
    (∀ text ∈ texts, ClosesQuotes text) ∧ (∀ text ∈ texts, Unescaped text) ∧
    (∀ text ∈ texts.map (respellFrom {}), '&' ∉ text) ∧
    (texts.map (respellFrom {})).all alternatives = clauses.all fun clause =>
      clause.any Literal.value := by
  induction h with
  | nil => simp
  | cons hclause _ ih =>
    obtain ⟨hcloses, hunescaped, hnone, hall⟩ := ih
    refine ⟨List.forall_mem_cons.2 ⟨hclause.closesQuotes, hcloses⟩,
      List.forall_mem_cons.2 ⟨hclause.unescaped, hunescaped⟩,
      List.forall_mem_cons.2 ⟨hclause.respell_not_mem, hnone⟩, ?_⟩
    rw [List.map_cons, List.all_cons, List.all_cons, hclause.alternatives_respell, hall]

end Clauses

/-- Literals joined by disjunctions, and the results joined by conjunctions, hold if and only if each of
    the disjunctions has a literal whose value is true. -/
theorem holdsText_connectives {clauses : List (List Literal)} {texts : List (List Char)} {text : String}
    (hclauses : List.Forall₂ IsClause clauses texts)
    (htext : Joined Connective.conjunction.Spelled texts text.toList) :
    holdsText text = true ↔ ∀ clause ∈ clauses, ∃ l ∈ clause, l.value = true := by
  obtain ⟨hcloses, hunescaped, hnone, hall⟩ := clauses_in_place hclauses
  have hmeaning : holdsText text = clauses.all fun clause => clause.any Literal.value := by
    rw [holdsText, normalize_of_unescaped (htext.unescaped hunescaped),
      meaning_joined (htext.respell hcloses) hnone, hall]
  rw [hmeaning, List.all_eq_true]
  simp only [List.any_eq_true]

/-- Both spellings of the connectives, negations of both parities, and connectives in quotes. -/
theorem holdsText_connectives_mixed :
    ∃ first second third : Literal,
      first.written = "!1 == 1".toList ∧ second.written = "!!5 gt 3".toList ∧
      third.written = "'rock and roll' == \"rock and roll\"".toList ∧
      holdsText "!1 == 1 Or !!5 gt 3 && 'rock and roll' == \"rock and roll\"" = true ∧
      ∀ clause ∈ [[first, second], [third]], ∃ l ∈ clause, l.value = true := by
  have hfirst : IsAtom "1 == 1".toList :=
    ⟨by decide, by decide, by decide, by decide, by decide, by decide⟩
  have hsecond : IsAtom "5 gt 3".toList :=
    ⟨by decide, by decide, by decide, by decide, by decide, by decide⟩
  have hthird : IsAtom "'rock and roll' == \"rock and roll\"".toList :=
    ⟨by decide, by decide, by decide, by decide, by decide, by decide⟩
  have hor : Connective.disjunction.Spelled "Or".toList := .inr (by decide)
  have hand : Connective.conjunction.Spelled "&&".toList := .inl (by decide)
  have htrue : holdsText "!1 == 1 Or !!5 gt 3 && 'rock and roll' == \"rock and roll\"" = true := by
    decide
  have hmixed : IsClause [⟨1, _, hfirst⟩, ⟨2, _, hsecond⟩] "!1 == 1 Or !!5 gt 3".toList :=
    Joined.cons hor (.last _)
  have hlast : IsClause [⟨0, _, hthird⟩] "'rock and roll' == \"rock and roll\"".toList := Joined.last _
  exact ⟨⟨1, _, hfirst⟩, ⟨2, _, hsecond⟩, ⟨0, _, hthird⟩, rfl, rfl, rfl, htrue,
    (holdsText_connectives (.cons hmixed (.cons hlast .nil)) (.cons hand (.last _))).1 htrue⟩

end HandlerScript.Condition
