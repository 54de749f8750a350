import HandlerScript.Proofs.Condition.Spelling
import HandlerScript.Proofs.Text.Characters

/-! Quotes, and the words outside them.

    A quote opens at a quotation mark outside quotes and closes at the next mark of its kind, or never.
    The blanks outside quotes divide a text into words. Ten words spell operators; each is made of
    letters, so it has no quote in it and a blank ends it. A text that has none of them among its words
    is kept as it is, and where a blank stands outside quotes the two sides are respelled apart. -/

namespace HandlerScript.Condition

open Text (isAlphanum_iff isAlpha_of_lower isBlank_of_isAlphanum)

/-! ### Definitions -/

/-- The quote that is open behind a character, given the one that is open before it. -/
def quoteBehind (quote : Option Char) (c : Char) : Option Char :=
  match quote with
  | some mark => if c = mark then none else some mark
  | none => if c = '"' ∨ c = '\'' then some c else none

/-- Every quote that a text opens is closed in it. -/
def ClosesQuotes (cs : List Char) : Prop := cs.foldl quoteBehind none = none

instance (cs : List Char) : Decidable (ClosesQuotes cs) := inferInstanceAs (Decidable (_ = none))

/-- The pieces between the blanks outside quotes, given the quote that is open at the start. -/
def wordsFrom : Option Char → List Char → List (List Char)
  | _, [] => [[]]
  | quote, c :: cs =>
    if Text.isBlank c && quote.isNone then [] :: wordsFrom none cs
    else Text.onFirst c (wordsFrom (quoteBehind quote c) cs)

/-- The words of a text; between two blanks in a row stands the empty word. -/
def words (cs : List Char) : List (List Char) := wordsFrom none cs

/-- The first word that is not empty. -/
def firstWord? (cs : List Char) : Option (List Char) := (words cs).find? (· ≠ [])

def operatorWords : List String :=
  ["and", "or", "equals", "eq", "not", "ne", "gte", "lte", "gt", "lt"]

/-- A word that spells an operator, in any letter case. -/
def IsOperator (word : List Char) : Prop := Text.lower (String.ofList word) ∈ operatorWords

instance (word : List Char) : Decidable (IsOperator word) :=
  inferInstanceAs (Decidable (_ ∈ operatorWords))

/-! ### Words -/

section Words

variable {word rest cs : List Char} {c : Char}

theorem Words.quote_push (w : Words) (c : Char) : (w.push c).quote = quoteBehind w.quote c := by
  cases hquote : w.quote with
  | some mark => simp only [Words.push, quoteBehind, hquote]
  | none =>
    simp only [Words.push, quoteBehind, hquote]
    split <;> rfl

theorem Words.quote_read (w : Words) (cs : List Char) :
    (w.read cs).quote = cs.foldl quoteBehind w.quote := by
  induction cs generalizing w with
  | nil => rfl
  | cons c cs ih => rw [Words.read_cons, ih, Words.quote_push, List.foldl_cons]

/-- Only the open quote decides where a word goes on. -/
theorem Words.goesOn_congr {w w' : Words} (h : w.quote = w'.quote) (cs : List Char) :
    w.goesOn cs = w'.goesOn cs := by
  induction cs generalizing w w' with
  | nil => rfl
  | cons c cs ih =>
    have hpush : (w.push c).quote = (w'.push c).quote := by
      rw [Words.quote_push, Words.quote_push, h]
    rw [Words.goesOn, Words.goesOn, h, ih hpush]

theorem closed_iff : Closed cs ↔ ClosesQuotes cs := by
  rw [Closed, Words.quote_read, ClosesQuotes]

theorem foldr_onFirst (word piece : List Char) (pieces : List (List Char)) :
    word.foldr Text.onFirst (piece :: pieces) = (word ++ piece) :: pieces := by
  induction word with
  | nil => rfl
  | cons c word ih => rw [List.foldr_cons, ih, Text.onFirst, List.cons_append]

theorem wordsFrom_append (w : Words) (h : w.goesOn word = true) (rest : List Char) :
    wordsFrom w.quote (word ++ rest) =
      word.foldr Text.onFirst (wordsFrom (w.read word).quote rest) := by
  induction word generalizing w with
  | nil => rfl
  | cons c word ih =>
    rw [Words.goesOn, Bool.and_eq_true, Bool.not_eq_true'] at h
    rw [List.cons_append, wordsFrom, h.1, ← Words.quote_push, ih _ h.2, List.foldr_cons,
      Words.read_cons]
    rfl

theorem words_word (h : IsWord word) : words word = [word] := by
  have happend := wordsFrom_append {} h []
  rw [List.append_nil, wordsFrom, foldr_onFirst, List.append_nil] at happend
  exact happend

theorem words_blank (h : IsWord word) (hclosed : Closed word) (hc : Text.isBlank c = true) :
    words (word ++ c :: rest) = word :: words rest := by
  have hend : wordsFrom (Words.read {} word).quote (c :: rest) = [] :: words rest := by
    rw [show (Words.read {} word).quote = none from hclosed, wordsFrom, hc]
    rfl
  have happend := wordsFrom_append {} h (c :: rest)
  rw [hend, foldr_onFirst, List.append_nil] at happend
  exact happend

theorem quoteBehind_of_ne {c : Char} (hdouble : c ≠ '"') (hsingle : c ≠ '\'') :
    quoteBehind none c = none :=
  if_neg (not_or.2 ⟨hdouble, hsingle⟩)

theorem quoteBehind_blank (hc : Text.isBlank c = true) : quoteBehind none c = none := by
  refine quoteBehind_of_ne ?_ ?_ <;> rintro rfl <;> cases hc

/-- A text without quotation marks leaves no quote open. -/
theorem closesQuotes_of_not_mem (hdouble : '"' ∉ cs) (hsingle : '\'' ∉ cs) : ClosesQuotes cs := by
  induction cs with
  | nil => rfl
  | cons c cs ih =>
    rw [List.mem_cons, not_or] at hdouble hsingle
    rw [ClosesQuotes, List.foldl_cons, quoteBehind_of_ne (Ne.symm hdouble.1) (Ne.symm hsingle.1)]
    exact ih hdouble.2 hsingle.2

theorem closesQuotes_append_blank (hcs : ClosesQuotes cs) (hc : Text.isBlank c = true) :
    ClosesQuotes (cs ++ c :: rest) ↔ ClosesQuotes rest := by
  rw [ClosesQuotes, List.foldl_append, show cs.foldl quoteBehind none = none from hcs,
    List.foldl_cons, quoteBehind_blank hc, ClosesQuotes]

/-- At a blank outside quotes the two sides are respelled apart. -/
theorem respellFrom_append_blank (hcs : ClosesQuotes cs) (hc : Text.isBlank c = true) :
    respellFrom {} (cs ++ c :: rest) = respellFrom {} cs ++ c :: respellFrom {} rest := by
  induction cs using induction_words with
  | last word h => rw [respellFrom_blank h (closed_iff.2 hcs) hc, respellFrom_word h]
  | more word d more h hclosed hd ih =>
    have hmore : ClosesQuotes more := (closesQuotes_append_blank (closed_iff.1 hclosed) hd).1 hcs
    rw [List.append_assoc, List.cons_append, respellFrom_blank h hclosed hd, ih hmore,
      respellFrom_blank h hclosed hd, List.append_assoc, List.cons_append]

end Words

/-! ### References -/

section References

variable {cs rest : List Char} {c : Char}

/-- A reference begins with an ampersand and ends with a semicolon. -/
theorem unescaped_of_not_mem (hc : c ∈ ['&', ';']) (h : c ∉ cs) : Unescaped cs := by
  intro r hr hphrase
  have hmem : c ∈ referenceTo r.2 := by
    rcases List.mem_pair.1 hc with rfl | rfl <;> simp [referenceTo]
  exact h (hphrase.subset hmem)

/-- No reference reaches over a blank. -/
theorem Unescaped.append_space (hcs : Unescaped cs) (hrest : Unescaped rest) :
    Unescaped (cs ++ ' ' :: rest) := by
  have hspace : ∀ r ∈ references, ' ' ∉ referenceTo r.2 := by decide
  intro r hr hphrase
  rcases Text.infix_append_cons (hspace r hr) hphrase with hphrase | hphrase
  · exact hcs r hr hphrase
  · exact hrest r hr hphrase

end References

/-! ### Operator words -/

section Operators

variable {word cs : List Char} {c : Char}

theorem IsOperator.isAlpha (h : IsOperator word) : ∀ c ∈ word, c.isAlpha = true := by
  have hletters : (operatorWords.all fun op => op.toList.all Char.isLower) = true := by
    decide
  exact isAlpha_of_lower (List.all_eq_true.1 hletters _ h) rfl

theorem not_isOperator_of_mem (hc : c ∈ word) (hletter : c.isAlpha = false) : ¬ IsOperator word := by
  intro h
  rw [h.isAlpha c hc] at hletter
  cases hletter

theorem isWord_of_forall (h : ∀ c ∈ word, Text.isBlank c = false) (w : Words) :
    w.goesOn word = true := by
  induction word generalizing w with
  | nil => rfl
  | cons c word ih =>
    obtain ⟨hc, hword⟩ := List.forall_mem_cons.1 h
    rw [Words.goesOn, hc, ih hword]
    rfl

/-- A text without blanks that has other characters than letters is one word, and no operator. -/
theorem no_operator_of_mem (hblank : ∀ d ∈ cs, Text.isBlank d = false) (hc : c ∈ cs)
    (hletter : c.isAlpha = false) : ∀ word ∈ words cs, ¬ IsOperator word := by
  rw [words_word (isWord_of_forall hblank {})]
  exact List.forall_mem_singleton.2 (not_isOperator_of_mem hc hletter)

theorem read_of_not_mem (hdouble : '"' ∉ word) (hsingle : '\'' ∉ word) (front : List Char) :
    Words.read { word := front } word = { word := word.reverse ++ front } := by
  induction word generalizing front with
  | nil => rfl
  | cons c word ih =>
    rw [List.mem_cons, not_or] at hdouble hsingle
    have hpush : Words.push { word := front } c = { word := c :: front } :=
      if_neg (not_or.2 ⟨Ne.symm hdouble.1, Ne.symm hsingle.1⟩)
    rw [Words.read_cons, hpush, ih hdouble.2 hsingle.2, List.reverse_cons, List.append_assoc]
    rfl

theorem isOperator_of_symbol?_isSome (h : (symbol? word).isSome = true) : IsOperator word := by
  unfold symbol? at h
  split at h
  case h_11 => cases h
  all_goals
    rename_i hlower
    simp only [IsOperator, hlower]
    decide

theorem symbol?_of_not_isOperator (h : ¬ IsOperator word) : symbol? word = none :=
  Option.not_isSome_iff_eq_none.1 fun hsome => h (isOperator_of_symbol?_isSome hsome)

theorem respelled_of_not_isOperator (h : ¬ IsOperator word) : respelled word = word := by
  rw [respelled, respell, symbol?_of_not_isOperator h]
  exact ite_self _

theorem IsOperator.respelled (h : IsOperator word) : respelled word = (symbol? word).getD word := by
  have hmark : ∀ c, c.isAlpha = false → c ∉ word := fun c hletter hc =>
    not_isOperator_of_mem hc hletter h
  rw [Condition.respelled, read_of_not_mem (hmark _ rfl) (hmark _ rfl)]
  rfl

theorem IsOperator.isWord (h : IsOperator word) : IsWord word := by
  refine isWord_of_forall (fun c hc => isBlank_of_isAlphanum ?_) {}
  exact isAlphanum_iff.2 (.inl (h.isAlpha c hc))

theorem IsOperator.closesQuotes (h : IsOperator word) : ClosesQuotes word :=
  closesQuotes_of_not_mem (fun hmem => not_isOperator_of_mem hmem rfl h)
    fun hmem => not_isOperator_of_mem hmem rfl h

/-- A mark that respelling turns into a symbol: the symbol itself, or a word that spells it. -/
def Spells (mark symbol : List Char) : Prop :=
  mark = symbol ∧ symbol ∈ symbols ∨ symbol? mark = some symbol

theorem Spells.closesQuotes {mark symbol : List Char} (h : Spells mark symbol) : ClosesQuotes mark := by
  rcases h with ⟨rfl, hsymbol⟩ | hword
  · exact closed_iff.1 (symbols_kept _ hsymbol).2.1
  · exact (isOperator_of_symbol?_isSome (by rw [hword]; rfl)).closesQuotes

theorem Spells.not_mem {mark symbol : List Char} (h : Spells mark symbol) : ';' ∉ mark := by
  rcases h with ⟨rfl, hsymbol⟩ | hword
  · exact (symbols_kept _ hsymbol).2.2.2
  · exact fun hmem => not_isOperator_of_mem hmem rfl (isOperator_of_symbol?_isSome (by rw [hword]; rfl))

/-- A mark in front of a blank is replaced by its symbol, whatever follows. -/
theorem Spells.respellFrom {mark symbol : List Char} (h : Spells mark symbol)
    (hc : Text.isBlank c = true) (rest : List Char) :
    respellFrom {} (mark ++ c :: rest) = symbol ++ c :: respellFrom {} rest := by
  rcases h with ⟨rfl, hsymbol⟩ | hword
  · obtain ⟨hword, hclosed, hkept, -⟩ := symbols_kept _ hsymbol
    rw [respellFrom_blank hword hclosed hc, hkept]
  · have hoperator : IsOperator mark := isOperator_of_symbol?_isSome (by rw [hword]; rfl)
    rw [respellFrom_blank hoperator.isWord (closed_iff.2 hoperator.closesQuotes) hc,
      hoperator.respelled, hword, Option.getD_some]

/-- A character behind respelling was there before or belongs to the symbol of a word. -/
theorem mem_respellFrom (hc : c ∈ respellFrom {} cs) :
    c ∈ cs ∨ ∃ word ∈ words cs, ∃ symbol, symbol? word = some symbol ∧ c ∈ symbol := by
  have hword : ∀ {word}, c ∈ Condition.respelled word →
      c ∈ word ∨ ∃ symbol, symbol? word = some symbol ∧ c ∈ symbol := by
    intro word hmem
    by_cases h : IsOperator word
    · rw [h.respelled] at hmem
      cases hsymbol : symbol? word with
      | none => exact .inl (by rwa [hsymbol] at hmem)
      | some symbol => exact .inr ⟨symbol, rfl, by rwa [hsymbol] at hmem⟩
    · exact .inl (by rwa [respelled_of_not_isOperator h] at hmem)
  induction cs using induction_words with
  | last word h =>
    rw [respellFrom_word h] at hc
    rw [words_word h]
    exact (hword hc).imp_right fun hsymbol => ⟨word, List.mem_cons_self, hsymbol⟩
  | more word d rest h hclosed hd ih =>
    rw [respellFrom_blank h hclosed hd, List.mem_append, List.mem_cons] at hc
    rw [words_blank h hclosed hd, List.mem_append, List.mem_cons]
    rcases hc with hc | hc | hc
    · rcases hword hc with hmem | hsymbol
      · exact .inl (.inl hmem)
      · exact .inr ⟨word, List.mem_cons_self, hsymbol⟩
    · exact .inl (.inr (.inl hc))
    · rcases ih hc with hmem | ⟨other, hother, hsymbol⟩
      · exact .inl (.inr (.inr hmem))
      · exact .inr ⟨other, List.mem_cons_of_mem word hother, hsymbol⟩

/-- The empty word is no operator, so the first word decides about what stands at the front. -/
theorem head?_words_of_firstWord? (h : ∀ word, firstWord? cs = some word → ¬ IsOperator word) :
    ∀ word, (words cs).head? = some word → ¬ IsOperator word := by
  intro word hword
  by_cases hempty : word = []
  · rw [hempty]
    decide
  · refine h word ?_
    obtain ⟨more, hmore⟩ := List.head?_eq_some_iff.1 hword
    rw [firstWord?, hmore, List.find?_cons_of_pos (by simpa using hempty)]

/-- A text without operator words is kept. -/
theorem respellFrom_of_forall_words (h : ∀ word ∈ words cs, ¬ IsOperator word) :
    respellFrom {} cs = cs := by
  induction cs using induction_words with
  | last word hword =>
    rw [words_word hword] at h
    rw [respellFrom_word hword, respelled_of_not_isOperator (h word List.mem_cons_self)]
  | more word c rest hword hclosed hc ih =>
    rw [words_blank hword hclosed hc] at h
    obtain ⟨hfirst, hrest⟩ := List.forall_mem_cons.1 h
    rw [respellFrom_blank hword hclosed hc, respelled_of_not_isOperator hfirst, ih hrest]

end Operators

end HandlerScript.Condition
