import HandlerScript.Condition
import HandlerScript.Proofs.Text.Phrases

/-! Words of conditions.

    A condition is made of words with blanks between them, where a blank inside quotes belongs to its
    word. Respelling goes from word to word: each is replaced by its symbol or kept, and the blanks stay.
    What is said of respelled conditions goes by induction over their words. A word that was respelled
    is a word again, is kept by respelling, and brings no semicolon that was not there. -/

namespace HandlerScript.Condition

namespace Words

/-- The state behind a text that was read. -/
def read (w : Words) (cs : List Char) : Words := cs.foldl push w

/-- Whether all of a text belongs to the word that is being read: no blank in it is outside quotes. -/
def goesOn : Words → List Char → Bool
  | _, [] => true
  | w, c :: cs => !(Text.isBlank c && w.quote.isNone) && (w.push c).goesOn cs

theorem read_cons (w : Words) (c : Char) (cs : List Char) : w.read (c :: cs) = (w.push c).read cs := rfl

theorem word_push (w : Words) (c : Char) : (w.push c).word = c :: w.word := by
  unfold push
  split
  · rfl
  · split <;> rfl

theorem word_read (w : Words) (cs : List Char) : (w.read cs).word = cs.reverse ++ w.word := by
  induction cs generalizing w with
  | nil => rfl
  | cons c cs ih => rw [read_cons, ih, word_push, List.reverse_cons, List.append_assoc]; rfl

end Words

/-- A text that is one word. -/
def IsWord (cs : List Char) : Prop := Words.goesOn {} cs = true

/-- A word whose quotes are closed, so that a blank ends it. -/
def Closed (cs : List Char) : Prop := (Words.read {} cs).quote = none

/-- What a word is respelled to. -/
def respelled (word : List Char) : List Char := respell (Words.read {} word).hasQuote word

theorem respellFrom_append (w : Words) {cs : List Char} (h : w.goesOn cs = true) (rest : List Char) :
    respellFrom w (cs ++ rest) = respellFrom (w.read cs) rest := by
  induction cs generalizing w with
  | nil => rfl
  | cons c cs ih =>
    rw [Words.goesOn, Bool.and_eq_true, Bool.not_eq_true'] at h
    rw [List.cons_append, respellFrom, h.1, Words.read_cons, ← ih _ h.2]
    rfl

/-- A text is one word, or a word that is closed, a blank and more. -/
theorem exists_word (w : Words) (cs : List Char) : w.goesOn cs = true ∨
    ∃ word c rest, cs = word ++ c :: rest ∧ w.goesOn word = true ∧ (w.read word).quote = none ∧
      Text.isBlank c = true := by
  induction cs generalizing w with
  | nil => exact .inl rfl
  | cons c cs ih =>
    cases hend : Text.isBlank c && w.quote.isNone with
    | true =>
      rw [Bool.and_eq_true, Option.isNone_iff_eq_none] at hend
      exact .inr ⟨[], c, cs, rfl, rfl, hend.2, hend.1⟩
    | false =>
      rcases ih (w.push c) with h | ⟨word, d, rest, rfl, hword, hquote, hd⟩
      · exact .inl (by rw [Words.goesOn, hend, h]; rfl)
      · exact .inr ⟨c :: word, d, rest, rfl, by rw [Words.goesOn, hend, hword]; rfl, hquote, hd⟩

section Respelled

variable {word rest cs : List Char} {c : Char}

theorem respellFrom_word (h : IsWord word) : respellFrom {} word = respelled word := by
  have happend := respellFrom_append {} h []
  rw [List.append_nil] at happend
  rw [happend, respellFrom, Words.word_read, List.append_nil, List.reverse_reverse, respelled]

theorem respellFrom_blank (h : IsWord word) (hclosed : Closed word) (hc : Text.isBlank c = true) :
    respellFrom {} (word ++ c :: rest) = respelled word ++ c :: respellFrom {} rest := by
  have hend : (Text.isBlank c && (Words.read {} word).quote.isNone) = true := by
    rw [hc, show (Words.read {} word).quote = none from hclosed]
    rfl
  rw [respellFrom_append {} h, respellFrom, if_pos hend, Words.word_read, List.append_nil,
    List.reverse_reverse, respelled]

/-- What holds of words, and passes over a closed word and a blank, holds of every text. -/
theorem induction_words {P : List Char → Prop} (last : ∀ word, IsWord word → P word)
    (more : ∀ word c rest, IsWord word → Closed word → Text.isBlank c = true → P rest →
      P (word ++ c :: rest)) (cs : List Char) : P cs := by
  rcases exists_word {} cs with h | ⟨word, c, rest, hcs, hword, hclosed, hc⟩
  · exact last cs h
  · have hlength : rest.length < cs.length := by
      rw [hcs, List.length_append, List.length_cons]
      omega
    rw [hcs]
    exact more word c rest hword hclosed hc (induction_words last more rest)
termination_by cs.length

/-! ### Symbols -/

/-- The symbols that words spell. -/
def symbols : List (List Char) :=
  ["&&".toList, "||".toList, "==".toList, "!=".toList, ">=".toList, "<=".toList, ">".toList, "<".toList]

theorem symbol?_mem {symbol : List Char} (h : symbol? word = some symbol) : symbol ∈ symbols := by
  unfold symbol? at h
  split at h <;> cases h <;> decide

theorem respelled_cases (word : List Char) : respelled word = word ∨ respelled word ∈ symbols := by
  rw [respelled, respell]
  split
  · exact .inl rfl
  · cases h : symbol? word with
    | none => exact .inl rfl
    | some symbol => exact .inr (symbol?_mem h)

theorem symbols_kept : ∀ symbol ∈ symbols, Words.goesOn {} symbol = true ∧
    (Words.read {} symbol).quote = none ∧ respelled symbol = symbol ∧ ';' ∉ symbol := by
  decide

theorem IsWord.respelled (h : IsWord word) : IsWord (respelled word) := by
  rcases respelled_cases word with heq | hsymbol
  · rwa [heq]
  · exact (symbols_kept _ hsymbol).1

theorem Closed.respelled (h : Closed word) : Closed (respelled word) := by
  rcases respelled_cases word with heq | hsymbol
  · rwa [heq]
  · exact (symbols_kept _ hsymbol).2.1

theorem respelled_respelled (word : List Char) : respelled (respelled word) = respelled word := by
  rcases respelled_cases word with heq | hsymbol
  · rw [heq, heq]
  · exact (symbols_kept _ hsymbol).2.2.1

/-! ### Respelled texts -/

/-- Respelling once is enough. -/
theorem respellFrom_respellFrom (cs : List Char) :
    respellFrom {} (respellFrom {} cs) = respellFrom {} cs := by
  induction cs using induction_words with
  | last word h => rw [respellFrom_word h, respellFrom_word h.respelled, respelled_respelled]
  | more word c rest h hclosed hc ih =>
    rw [respellFrom_blank h hclosed hc, respellFrom_blank h.respelled hclosed.respelled hc,
      respelled_respelled, ih]

/-- A phrase with a semicolon and without blanks was there before words were respelled. -/
theorem infix_of_infix_respellFrom {phrase : List Char} (hmark : ';' ∈ phrase)
    (hblanks : ∀ c ∈ phrase, Text.isBlank c = false) (h : phrase <:+: respellFrom {} cs) :
    phrase <:+: cs := by
  have hword : ∀ {word}, phrase <:+: respelled word → phrase <:+: word := by
    intro word hphrase
    rcases respelled_cases word with heq | hsymbol
    · rwa [heq] at hphrase
    · exact absurd (hphrase.subset hmark) (symbols_kept _ hsymbol).2.2.2
  induction cs using induction_words with
  | last word hw =>
    rw [respellFrom_word hw] at h
    exact hword h
  | more word c rest hw hclosed hc ih =>
    have hnot : c ∉ phrase := fun hmem => by
      rw [hblanks c hmem] at hc
      cases hc
    rw [respellFrom_blank hw hclosed hc] at h
    rcases Text.infix_append_cons hnot h with h | h
    · exact (hword h).trans (List.prefix_append _ _).isInfix
    · exact (ih h).trans ((List.suffix_cons c rest).trans (List.suffix_append word _)).isInfix

end Respelled

end HandlerScript.Condition
