import HandlerScript.Proofs.Condition.Quotes

/-! Operator words and all that is kept.

    The blanks outside quotes divide a text into pieces in one way only. Whether a blank is one of them is a
    matter of the whole text in front of it; but no quote is open at a separator, so each piece can be looked at
    alone: it has no separator in it, and its quotes are closed if a separator follows. These are the words
    that respelling goes by. It replaces those that spell an operator and keeps the others, and the
    symbols that it puts in are words themselves, so the result has the same separators with the replaced
    pieces between them. -/

namespace HandlerScript.Condition

open Text (isAlphanum_iff isBlank_of_isAlphanum)

/-! ### Divisions -/

/-- A text in pieces: each with the separator behind it, and what is behind the last separator. -/
structure Division where
  pieces : List (List Char × Char)
  last : List Char

/-- Pieces and separators in a row. -/
def joined : List (List Char × Char) → List Char → List Char
  | [], last => last
  | (piece, c) :: pieces, last => piece ++ c :: joined pieces last

def Division.text (d : Division) : List Char := joined d.pieces d.last

/-- The same separators with other pieces between them. -/
def Division.map (f : List Char → List Char) (d : Division) : Division where
  pieces := d.pieces.map fun p => (f p.1, p.2)
  last := f d.last

/-- Whether `c` is one of the separators, with the text `front` before it. -/
inductive SeparatorAt (c : Char) : List (List Char × Char) → List Char → Prop
  | here {piece : List Char} {pieces : List (List Char × Char)} : SeparatorAt c ((piece, c) :: pieces) piece
  | behind {piece front : List Char} {d : Char} {pieces : List (List Char × Char)} :
      SeparatorAt c pieces front → SeparatorAt c ((piece, d) :: pieces) (piece ++ d :: front)

/-- The separators of a text are its blanks outside quotes. -/
def Division.AtBlanks (d : Division) : Prop :=
  ∀ front c rest, d.text = front ++ c :: rest →
    (SeparatorAt c d.pieces front ↔ ClosesQuotes front ∧ Text.isBlank c = true)

/-! ### Replaced pieces -/

/-- The words that spell operators, and their symbols. -/
def operatorSymbols : List (String × String) :=
  [("and", "&&"), ("or", "||"), ("equals", "=="), ("eq", "=="), ("not", "!="), ("ne", "!="),
    ("gte", ">="), ("lte", "<="), ("gt", ">"), ("lt", "<")]

/-- What a piece is replaced by: the symbol of the word that it is up to letter case. Any other piece,
    and whatever has a quotation mark in it, is kept. -/
def rewritten (piece : List Char) : List Char :=
  if '"' ∈ piece ∨ '\'' ∈ piece then piece
  else
    match operatorSymbols.find? fun entry => Text.sameLetters entry.1 (String.ofList piece) with
    | some entry => entry.2.toList
    | none => piece

/-- A text in quotes from the opening mark on, up to the closing one or shorter. -/
inductive Quoted : List Char → Prop
  | opened {mark : Char} {inside : List Char} : mark ∈ ['"', '\''] → mark ∉ inside → Quoted (mark :: inside)
  | closed {mark : Char} {inside : List Char} : mark ∈ ['"', '\''] → mark ∉ inside →
      Quoted (mark :: (inside ++ [mark]))

/-! ### Separators and words -/

section Divisions

variable {cs piece front last : List Char} {pieces : List (List Char × Char)} {c d : Char}

instance (cs : List Char) : Decidable (IsWord cs) := inferInstanceAs (Decidable (_ = true))

theorem goesOn_iff (w : Words) : w.goesOn cs = true ↔ ∀ front c rest, cs = front ++ c :: rest →
    ¬ ((w.read front).quote = none ∧ Text.isBlank c = true) := by
  induction cs generalizing w with
  | nil => simp [Words.goesOn]
  | cons c cs ih =>
    rw [Words.goesOn, Bool.and_eq_true, ih, Bool.not_eq_true', Bool.and_eq_false_imp]
    constructor
    · rintro ⟨hc, hcs⟩ front d rest heq ⟨hquote, hd⟩
      cases front with
      | nil =>
        obtain ⟨rfl, rfl⟩ := List.cons.inj heq
        rw [show w.quote = none from hquote] at hc
        exact absurd (hc hd) (by decide)
      | cons e front =>
        obtain ⟨rfl, rfl⟩ := List.cons.inj heq
        exact hcs front d rest rfl ⟨hquote, hd⟩
    · refine fun h => ⟨fun hc => ?_, ?_⟩
      · rw [← Bool.not_eq_true, Option.isNone_iff_eq_none]
        exact fun hquote => h [] c cs rfl ⟨hquote, hc⟩
      · rintro front d rest rfl
        exact h (c :: front) d rest rfl

/-- A word is a text that has no blank outside quotes. -/
theorem isWord_iff : IsWord cs ↔ ∀ front c rest, cs = front ++ c :: rest →
    ¬ (ClosesQuotes front ∧ Text.isBlank c = true) := by
  simp only [← closed_iff]
  exact goesOn_iff {}

/-- Where a character stands in a text that is cut at a separator: in front of it, at it or behind it. -/
theorem append_cons_cases {left right rest : List Char} (h : left ++ c :: right = front ++ d :: rest) :
    (∃ more, left = front ++ d :: more) ∨ (left = front ∧ c = d) ∨
      ∃ more, front = left ++ c :: more ∧ right = more ++ d :: rest := by
  rcases List.append_eq_append_iff.1 h with ⟨more, hfront, htail⟩ | ⟨more, hleft, htail⟩
  · cases more with
    | nil => exact .inr (.inl ⟨by rw [hfront, List.append_nil], (List.cons.inj htail).1⟩)
    | cons e more =>
      obtain ⟨rfl, hright⟩ := List.cons.inj htail
      exact .inr (.inr ⟨more, hfront, hright⟩)
  · cases more with
    | nil => exact .inr (.inl ⟨by rw [hleft, List.append_nil], (List.cons.inj htail).1.symm⟩)
    | cons e more =>
      obtain ⟨rfl, -⟩ := List.cons.inj htail
      exact .inl ⟨more, hleft⟩

/-- No separator stands inside the first piece. -/
theorem not_separatorAt_inside {rest : List Char} (h : piece = front ++ d :: rest) :
    ¬ SeparatorAt d ((piece, c) :: pieces) front := by
  intro hat
  have hprefix : piece <+: front := by
    cases hat with
    | here => exact List.prefix_rfl
    | behind _ => exact List.prefix_append ..
  have hle := hprefix.length_le
  rw [h, List.length_append, List.length_cons] at hle
  omega

theorem separatorAt_behind_iff :
    SeparatorAt d ((piece, c) :: pieces) (piece ++ c :: front) ↔ SeparatorAt d pieces front := by
  refine ⟨fun h => ?_, .behind⟩
  generalize hall : piece ++ c :: front = all at h
  cases h with
  | here => exact absurd hall (by simp)
  | behind h =>
    obtain ⟨-, rfl⟩ := List.cons.inj (List.append_cancel_left hall)
    exact h

theorem atBlanks_nil_iff : Division.AtBlanks ⟨[], last⟩ ↔ IsWord last := by
  have hnone : ∀ {c front}, ¬ SeparatorAt c [] front := nofun
  simp only [Division.AtBlanks, Division.text, joined, isWord_iff, hnone, false_iff]

/-- No quote is open behind a separator, so the rest can be looked at alone. -/
theorem atBlanks_cons_iff : Division.AtBlanks ⟨(piece, c) :: pieces, last⟩ ↔
    (IsWord piece ∧ ClosesQuotes piece ∧ Text.isBlank c = true) ∧ Division.AtBlanks ⟨pieces, last⟩ := by
  constructor
  · intro h
    have hc : ClosesQuotes piece ∧ Text.isBlank c = true := (h piece c _ rfl).1 .here
    refine ⟨⟨isWord_iff.2 ?_, hc⟩, ?_⟩
    · intro front d rest heq hd
      have hall : piece ++ c :: joined pieces last = front ++ d :: (rest ++ c :: joined pieces last) := by
        rw [heq, List.append_assoc, List.cons_append]
      exact not_separatorAt_inside heq ((h front d _ hall).2 hd)
    · intro front d rest htext
      have hall : piece ++ c :: joined pieces last = (piece ++ c :: front) ++ d :: rest := by
        rw [show joined pieces last = front ++ d :: rest from htext, List.append_assoc, List.cons_append]
      rw [← separatorAt_behind_iff, h _ d rest hall, closesQuotes_append_blank hc.1 hc.2]
  · rintro ⟨⟨hword, hcloses, hc⟩, h⟩ front d rest htext
    rcases append_cons_cases htext with ⟨more, heq⟩ | ⟨rfl, rfl⟩ | ⟨more, rfl, hrest⟩
    · exact iff_of_false (not_separatorAt_inside heq) (isWord_iff.1 hword front d more heq)
    · exact iff_of_true .here ⟨hcloses, hc⟩
    · rw [separatorAt_behind_iff, closesQuotes_append_blank hcloses hc]
      exact h more d rest hrest

/-- Each piece can be looked at alone. -/
theorem Division.atBlanks_iff {d : Division} : d.AtBlanks ↔
    (∀ p ∈ d.pieces, IsWord p.1 ∧ ClosesQuotes p.1 ∧ Text.isBlank p.2 = true) ∧ IsWord d.last := by
  obtain ⟨pieces, last⟩ := d
  induction pieces with
  | nil => simp [atBlanks_nil_iff]
  | cons p pieces ih =>
    change _ ↔ (∀ q ∈ p :: pieces, _) ∧ _
    rw [atBlanks_cons_iff, ih, List.forall_mem_cons]
    exact and_assoc.symm

instance (d : Division) : Decidable d.AtBlanks := decidable_of_iff _ Division.atBlanks_iff.symm

theorem exists_division (cs : List Char) : ∃ d : Division, d.text = cs ∧ d.AtBlanks := by
  induction cs using induction_words with
  | last word h => exact ⟨⟨[], word⟩, rfl, atBlanks_nil_iff.2 h⟩
  | more word c rest h hclosed hc ih =>
    obtain ⟨⟨pieces, last⟩, rfl, hrest⟩ := ih
    exact ⟨⟨(word, c) :: pieces, last⟩, rfl, atBlanks_cons_iff.2 ⟨⟨h, closed_iff.1 hclosed, hc⟩, hrest⟩⟩

/-- A text is divided in one way only. -/
theorem Division.AtBlanks.unique {a b : Division} (ha : a.AtBlanks) (hb : b.AtBlanks)
    (h : a.text = b.text) : a = b := by
  obtain ⟨pieces, last⟩ := a
  obtain ⟨pieces', last'⟩ := b
  induction pieces generalizing pieces' with
  | nil =>
    cases pieces' with
    | nil => rw [show last = last' from h]
    | cons p' pieces' =>
      obtain ⟨⟨-, hseparates⟩, -⟩ := atBlanks_cons_iff.1 hb
      exact absurd hseparates (isWord_iff.1 (atBlanks_nil_iff.1 ha) _ _ _ h)
  | cons p pieces ih =>
    obtain ⟨piece, c⟩ := p
    obtain ⟨⟨hword, hseparates⟩, hrest⟩ := atBlanks_cons_iff.1 ha
    cases pieces' with
    | nil => exact absurd hseparates (isWord_iff.1 (atBlanks_nil_iff.1 hb) _ _ _ h.symm)
    | cons p' pieces' =>
      obtain ⟨piece', c'⟩ := p'
      obtain ⟨⟨hword', hseparates'⟩, hrest'⟩ := atBlanks_cons_iff.1 hb
      -- the separator behind a shorter first piece would stand inside the longer one
      obtain ⟨rfl, rfl⟩ : piece = piece' ∧ c = c' := by
        rcases append_cons_cases h with ⟨more, heq⟩ | heq | ⟨more, heq, -⟩
        · exact absurd hseparates' (isWord_iff.1 hword _ _ _ heq)
        · exact heq
        · exact absurd hseparates (isWord_iff.1 hword' _ _ _ heq)
      cases ih hrest pieces' hrest' (List.cons.inj (List.append_cancel_left h)).2
      rfl

end Divisions

/-! ### Replacing -/

section Replacing

variable {cs word piece front phrase : List Char}

theorem lower_operatorSymbols : ∀ entry ∈ operatorSymbols, Text.lower entry.1 = entry.1 := by decide

theorem symbol?_of_mem {entry : String × String} (hentry : entry ∈ operatorSymbols)
    (h : Text.lower (String.ofList word) = entry.1) : symbol? word = some entry.2.toList := by
  unfold symbol?
  rw [h]
  simp only [operatorSymbols, List.mem_cons, List.not_mem_nil, or_false] at hentry
  rcases hentry with rfl | rfl | rfl | rfl | rfl | rfl | rfl | rfl | rfl | rfl <;> rfl

theorem symbol?_eq (word : List Char) : symbol? word =
    (operatorSymbols.find? fun entry => Text.sameLetters entry.1 (String.ofList word)).map (·.2.toList) := by
  cases hfind : operatorSymbols.find? fun entry => Text.sameLetters entry.1 (String.ofList word) with
  | none =>
    refine symbol?_of_not_isOperator fun hoperator => ?_
    have hmem : Text.lower (String.ofList word) ∈ operatorSymbols.map (·.1) := hoperator
    obtain ⟨entry, hentry, heq⟩ := List.mem_map.1 hmem
    refine List.find?_eq_none.1 hfind entry hentry (Text.sameLetters_iff.2 ?_)
    rw [lower_operatorSymbols entry hentry, heq]
  | some entry =>
    have hentry := List.mem_of_find?_eq_some hfind
    have hsame : Text.sameLetters entry.1 (String.ofList word) = true := by
      simpa only using List.find?_some hfind
    rw [Text.sameLetters_iff, lower_operatorSymbols entry hentry] at hsame
    exact symbol?_of_mem hentry hsame.symm

theorem respelled_eq_rewritten (piece : List Char) : respelled piece = rewritten piece := by
  have hspelled : respelled piece = (symbol? piece).getD piece := by
    by_cases h : IsOperator piece
    · exact h.respelled
    · rw [respelled_of_not_isOperator h, symbol?_of_not_isOperator h, Option.getD_none]
  rw [rewritten]
  split
  · rename_i hquote
    refine respelled_of_not_isOperator ?_
    rcases hquote with hmem | hmem
    · exact not_isOperator_of_mem hmem rfl
    · exact not_isOperator_of_mem hmem rfl
  · rw [hspelled, symbol?_eq]
    cases operatorSymbols.find? fun entry => Text.sameLetters entry.1 (String.ofList piece) with
    | none => rfl
    | some entry => rfl

/-- Respelling replaces the pieces of a text and keeps its separators. -/
theorem Division.AtBlanks.respellFrom {d : Division} (h : d.AtBlanks) :
    respellFrom {} d.text = (d.map rewritten).text := by
  obtain ⟨pieces, last⟩ := d
  induction pieces with
  | nil => exact (respellFrom_word (atBlanks_nil_iff.1 h)).trans (respelled_eq_rewritten last)
  | cons p pieces ih =>
    obtain ⟨piece, c⟩ := p
    obtain ⟨⟨hword, hcloses, hc⟩, hrest⟩ := atBlanks_cons_iff.1 h
    calc Condition.respellFrom {} (piece ++ c :: joined pieces last)
        _ = respelled piece ++ c :: Condition.respellFrom {} (joined pieces last) :=
          respellFrom_blank hword (closed_iff.2 hcloses) hc
        _ = rewritten piece ++ c :: (Division.map rewritten ⟨pieces, last⟩).text :=
          congrArg₂ (· ++ c :: ·) (respelled_eq_rewritten piece) (ih hrest)

/-- The symbols are words, so what has been replaced stands between the same separators. -/
theorem Division.AtBlanks.map_rewritten {d : Division} (h : d.AtBlanks) :
    (d.map rewritten).AtBlanks := by
  obtain ⟨hpieces, hlast⟩ := Division.atBlanks_iff.1 h
  refine Division.atBlanks_iff.2 ⟨List.forall_mem_map.2 fun p hp => ?_, ?_⟩
  · obtain ⟨hword, hcloses, hc⟩ := hpieces p hp
    rw [← respelled_eq_rewritten]
    exact ⟨hword.respelled, closed_iff.1 (closed_iff.2 hcloses).respelled, hc⟩
  · rw [Division.map, ← respelled_eq_rewritten]
    exact hlast.respelled

/-! ### What is kept -/

/-- Neither operator words nor symbols have blanks. -/
theorem filter_isBlank_respelled (word : List Char) :
    (respelled word).filter Text.isBlank = word.filter Text.isBlank := by
  by_cases h : IsOperator word
  · have hword : word.filter Text.isBlank = [] := by
      refine List.filter_eq_nil_iff.2 fun c hc => ?_
      rw [isBlank_of_isAlphanum (isAlphanum_iff.2 (.inl (h.isAlpha c hc)))]
      decide
    have hsymbols : ∀ symbol ∈ symbols, symbol.filter Text.isBlank = [] := by decide
    rcases respelled_cases word with heq | hsymbol
    · rw [heq]
    · rw [hword, hsymbols _ hsymbol]
  · rw [respelled_of_not_isOperator h]

/-- All blanks stay, in quotes or outside. -/
theorem filter_isBlank_respellFrom (cs : List Char) :
    (respellFrom {} cs).filter Text.isBlank = cs.filter Text.isBlank := by
  induction cs using induction_words with
  | last word h => rw [respellFrom_word h, filter_isBlank_respelled]
  | more word c rest h hclosed hc ih =>
    rw [respellFrom_blank h hclosed hc, List.filter_append, List.filter_append, filter_isBlank_respelled,
      List.filter_cons_of_pos hc, List.filter_cons_of_pos hc, ih]

theorem Words.hasQuote_push {w : Words} (h : w.hasQuote = true) (c : Char) : (w.push c).hasQuote = true := by
  unfold Words.push
  split
  · exact h
  · split
    · rfl
    · exact h

/-- A word with a quote in it is kept, whatever follows. -/
theorem respellFrom_of_hasQuote {w : Words} (h : w.hasQuote = true) (cs : List Char) :
    ∃ more, respellFrom w cs = w.word.reverse ++ more := by
  induction cs generalizing w with
  | nil => exact ⟨[], by rw [respellFrom, h, List.append_nil]; rfl⟩
  | cons c cs ih =>
    rw [respellFrom]
    split
    · exact ⟨_, by rw [h]; rfl⟩
    · obtain ⟨more, hmore⟩ := ih (Words.hasQuote_push h c)
      exact ⟨c :: more, by rw [hmore, Words.word_push, List.reverse_cons, List.append_assoc]; rfl⟩

theorem Words.hasQuote_read {w : Words} (h : w.hasQuote = true) (cs : List Char) :
    (w.read cs).hasQuote = true := by
  induction cs generalizing w with
  | nil => exact h
  | cons c cs ih => exact ih (Words.hasQuote_push h c)

theorem Words.push_mark {w : Words} {mark : Char} (hw : w.quote = none) (hmark : mark ∈ ['"', '\'']) :
    w.push mark = ⟨mark :: w.word, true, some mark⟩ := by
  simp only [Words.push, hw]
  exact if_pos (List.mem_pair.1 hmark)

/-- In quotes no blank ends a word. -/
theorem Words.goesOn_inside {w : Words} {mark : Char} {inside : List Char} (hw : w.quote = some mark)
    (hinside : mark ∉ inside) (cs : List Char) :
    w.goesOn (inside ++ cs) = (w.read inside).goesOn cs := by
  induction inside generalizing w with
  | nil => rfl
  | cons c inside ih =>
    obtain ⟨hc, hinside⟩ := List.ne_and_not_mem_of_not_mem_cons hinside
    have hpush : (w.push c).quote = some mark := by
      rw [Words.quote_push, hw]
      exact if_neg (Ne.symm hc)
    rw [List.cons_append, Words.goesOn, hw, ih hpush hinside, Option.isNone_some, Bool.and_false]
    rfl

theorem Quoted.goesOn {w : Words} (h : Quoted phrase) (hw : w.quote = none) : w.goesOn phrase = true := by
  have hblank : ∀ {mark}, mark ∈ ['"', '\''] → Text.isBlank mark = false := by
    intro mark hmark
    rcases List.mem_pair.1 hmark with rfl | rfl <;> rfl
  cases h with
  | @opened mark inside hmark hinside =>
    have hgoes := Words.goesOn_inside (w := w.push mark) (by rw [Words.push_mark hw hmark]) hinside []
    rw [List.append_nil] at hgoes
    rw [Words.goesOn, hblank hmark, hgoes]
    rfl
  | @closed mark inside hmark hinside =>
    have hgoes := Words.goesOn_inside (w := w.push mark) (by rw [Words.push_mark hw hmark]) hinside [mark]
    rw [Words.goesOn, hblank hmark, hgoes, Words.goesOn, hblank hmark]
    rfl

theorem Quoted.hasQuote_read {w : Words} (h : Quoted phrase) (hw : w.quote = none) :
    (w.read phrase).hasQuote = true := by
  cases h with
  | opened hmark _ | closed hmark _ =>
    rw [Words.read_cons, Words.push_mark hw hmark]
    exact Words.hasQuote_read rfl _

/-- A quoted phrase stays, and it still begins outside quotes. -/
theorem Quoted.kept (h : Quoted phrase) (hfront : ClosesQuotes front) (rest : List Char) :
    ∃ left right, respellFrom {} (front ++ (phrase ++ rest)) = left ++ (phrase ++ right) ∧
      ClosesQuotes left := by
  induction front using induction_words with
  | last word hword =>
    have hquote : (Words.read {} word).quote = none := closed_iff.2 hfront
    obtain ⟨more, hmore⟩ := respellFrom_of_hasQuote (h.hasQuote_read hquote) rest
    refine ⟨word, more, ?_, hfront⟩
    rw [respellFrom_append {} hword, respellFrom_append _ (h.goesOn hquote), hmore, Words.word_read,
      Words.word_read, List.append_nil, List.reverse_append, List.reverse_reverse, List.reverse_reverse,
      List.append_assoc]
  | more word c front hword hclosed hc ih =>
    obtain ⟨left, right, heq, hleft⟩ := ih ((closesQuotes_append_blank (closed_iff.1 hclosed) hc).1 hfront)
    refine ⟨respelled word ++ c :: left, right, ?_, ?_⟩
    · rw [List.append_assoc, List.cons_append, respellFrom_blank hword hclosed hc, heq, List.append_assoc,
        List.cons_append]
    · exact (closesQuotes_append_blank (closed_iff.1 hclosed.respelled) hc).2 hleft

end Replacing

/-- A text in which no reference occurs is divided by its blanks outside quotes, in one way only.
    Normalizing replaces the pieces that spell operators and keeps the others and all separators, which
    are the separators of the result again. Whatever stands in quotes and all blanks are kept. -/
theorem normalize_replaces_words {cs : List Char} (h : Unescaped cs) :
    ∃ d : Division, (d.text = cs ∧ d.AtBlanks) ∧ (∀ d' : Division, d'.text = cs → d'.AtBlanks → d' = d) ∧
      normalize cs = (d.map rewritten).text ∧ (d.map rewritten).AtBlanks ∧
      (∀ front phrase rest, cs = front ++ (phrase ++ rest) → ClosesQuotes front → Quoted phrase →
        ∃ left right, normalize cs = left ++ (phrase ++ right) ∧ ClosesQuotes left) ∧
      (normalize cs).filter Text.isBlank = cs.filter Text.isBlank := by
  rw [normalize_of_unescaped h]
  obtain ⟨d, rfl, hd⟩ := exists_division cs
  refine ⟨d, ⟨rfl, hd⟩, fun d' htext hd' => hd'.unique hd htext, hd.respellFrom, hd.map_rewritten, ?_,
    filter_isBlank_respellFrom d.text⟩
  intro front phrase rest heq hfront hphrase
  rw [heq]
  exact hphrase.kept hfront rest

theorem normalize_replaces_words_quoted :
    normalize "x'or \"and'\u3000GTE android & \"ne lt".toList =
      "x'or \"and'\u3000>= android & \"ne lt".toList := by
  have hnone : Unescaped "x'or \"and'\u3000GTE android & \"ne lt".toList :=
    unescaped_of_not_mem (c := ';') (by decide) (by decide)
  obtain ⟨d, -, hunique, hnormal, -⟩ := normalize_replaces_words hnone
  have hdivision := hunique
    ⟨[("x'or \"and'".toList, '\u3000'), ("GTE".toList, ' '), ("android".toList, ' '), ("&".toList, ' ')],
      "\"ne lt".toList⟩ (by decide) (by decide)
  rw [hnormal, ← hdivision]
  decide

end HandlerScript.Condition
