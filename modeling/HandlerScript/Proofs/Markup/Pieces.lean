import Mathlib.Data.List.Infix
import Mathlib.Data.List.Basic

/-! Texts divided at references.

    A reference is a name between an ampersand and a semicolon. Which names there are is left open here;
    all that counts is that a name has neither of the two marks in it and stands for one character. Then
    references cannot overlap, so a text divides in one way into references and plain characters such
    that every reference that occurs in it is one of the pieces. A division that misses some of them
    has more pieces. -/

namespace HandlerScript.Markup

/-- A piece of a text: a plain character, or a reference with the character that it stands for. -/
inductive Piece where
  | char (c : Char)
  | reference (name : List Char) (c : Char)

namespace Piece

def written : Piece → List Char
  | .char c => [c]
  | .reference name _ => '&' :: (name ++ [';'])

def decoded : Piece → Char
  | .char c => c
  | .reference _ c => c

theorem written_ne_nil (p : Piece) : p.written ≠ [] := by
  cases p <;> exact List.cons_ne_nil _ _

theorem flatMap_chars (cs : List Char) : (cs.map Piece.char).flatMap Piece.written = cs := by
  induction cs with
  | nil => rfl
  | cons c cs ih => exact congrArg (c :: ·) ih

end Piece

/-- Names that can stand in references, each for one character. -/
structure Naming (R : List Char → Char → Prop) : Prop where
  unique : ∀ {name c c'}, R name c → R name c' → c = c'
  plain : ∀ {name c}, R name c → '&' ∉ name ∧ ';' ∉ name

/-- The names other than one. -/
def Without (R : List Char → Char → Prop) (name m : List Char) (c : Char) : Prop := R m c ∧ m ≠ name

theorem Naming.without {R : List Char → Char → Prop} (hR : Naming R) (name : List Char) :
    Naming (Without R name) where
  unique h h' := hR.unique h.1 h'.1
  plain h := hR.plain h.1

/-- The text is written by the pieces, and all references among them have names. -/
structure Splits (R : List Char → Char → Prop) (cs : List Char) (ps : List Piece) : Prop where
  written : ps.flatMap Piece.written = cs
  names : ∀ name c, .reference name c ∈ ps → R name c

/-- Every reference that occurs in the text is one of the pieces. -/
structure Divides (R : List Char → Char → Prop) (cs : List Char) (ps : List Piece) : Prop
    extends Splits R cs ps where
  every : ∀ front name c behind, R name c → cs = front ++ '&' :: (name ++ ';' :: behind) →
    ∃ before after, ps = before ++ .reference name c :: after ∧ before.flatMap Piece.written = front

/-- A reference stands at the front of the text. -/
def Opens (R : List Char → Char → Prop) (cs : List Char) : Prop :=
  ∃ name c behind, R name c ∧ cs = '&' :: (name ++ ';' :: behind)

section Pieces

variable {R : List Char → Char → Prop} {cs rest name : List Char} {p : Piece} {ps qs : List Piece}
  {c : Char}

/-! ### Piece by piece -/

theorem Splits.nil_iff : Splits R [] ps ↔ ps = [] := by
  constructor
  · intro h
    cases ps with
    | nil => rfl
    | cons p ps => exact absurd (List.append_eq_nil_iff.1 h.written).1 p.written_ne_nil
  · rintro rfl
    exact ⟨rfl, fun _ _ h => nomatch h⟩

theorem Splits.cons_iff : Splits R cs (p :: ps) ↔
    ∃ rest, cs = p.written ++ rest ∧ (∀ name c, p = .reference name c → R name c) ∧ Splits R rest ps := by
  constructor
  · intro h
    refine ⟨ps.flatMap Piece.written, h.written.symm, ?_, rfl, ?_⟩
    · rintro name c rfl
      exact h.names name c List.mem_cons_self
    · exact fun name c hmem => h.names name c (List.mem_cons_of_mem p hmem)
  · rintro ⟨rest, rfl, hp, h⟩
    refine ⟨by rw [List.flatMap_cons, h.written], fun name c hmem => ?_⟩
    rcases List.mem_cons.1 hmem with heq | hmem
    · exact hp name c heq.symm
    · exact h.names name c hmem

/-- Two names that end at the first semicolon of one text are the same. -/
theorem name_unique {m behind : List Char} (hname : ';' ∉ name) (hm : ';' ∉ m)
    (h : name ++ ';' :: rest = m ++ ';' :: behind) : name = m ∧ rest = behind := by
  induction name generalizing m with
  | nil =>
    cases m with
    | nil => exact ⟨rfl, (List.cons.inj h).2⟩
    | cons d m =>
      obtain rfl := (List.cons.inj h).1
      exact absurd List.mem_cons_self hm
  | cons d name ih =>
    obtain ⟨hd, hname⟩ := not_or.1 fun hmem => hname (List.mem_cons.2 hmem)
    cases m with
    | nil => exact absurd (List.cons.inj h).1.symm hd
    | cons d' m =>
      obtain ⟨rfl, htail⟩ := List.cons.inj h
      obtain ⟨rfl, hrest⟩ := ih hname (fun hmem => hm (List.mem_cons_of_mem d hmem)) htail
      exact ⟨rfl, hrest⟩

/-- A text without an ampersand is passed over before a reference begins. -/
theorem exists_behind {front behind text : List Char} (htext : '&' ∉ text)
    (h : text ++ rest = front ++ '&' :: behind) :
    ∃ more, front = text ++ more ∧ rest = more ++ '&' :: behind := by
  rcases List.append_eq_append_iff.1 h with ⟨more, hfront, hrest⟩ | ⟨more, htext', hmore⟩
  · exact ⟨more, hfront, hrest⟩
  · cases more with
    | nil =>
      rw [List.append_nil] at htext'
      rw [List.nil_append] at hmore
      exact ⟨[], by rw [htext', List.append_nil], hmore.symm⟩
    | cons d more =>
      obtain rfl := (List.cons.inj hmore).1
      exact absurd (htext' ▸ List.mem_append_right front List.mem_cons_self) htext

theorem Divides.nil : Divides R [] [] where
  toSplits := Splits.nil_iff.2 rfl
  every front name c behind _ h := by simp at h

/-- A character at which no reference begins is a piece. -/
theorem divides_char_iff : Divides R (c :: cs) (.char c :: ps) ↔ ¬ Opens R (c :: cs) ∧ Divides R cs ps := by
  constructor
  · intro h
    obtain ⟨rest, hrest, -, hsplits⟩ := Splits.cons_iff.1 h.toSplits
    obtain rfl : cs = rest := (List.cons.inj hrest).2
    refine ⟨?_, hsplits, fun front name d behind hd heq => ?_⟩
    · rintro ⟨name, d, behind, hd, heq⟩
      obtain ⟨before, after, hps, hbefore⟩ := h.every [] name d behind hd heq
      cases before with
      | nil => cases hps
      | cons p before => exact absurd (List.append_eq_nil_iff.1 hbefore).1 p.written_ne_nil
    · obtain ⟨before, after, hps, hbefore⟩ :=
        h.every (c :: front) name d behind hd (by rw [heq, List.cons_append])
      cases before with
      | nil => cases hbefore
      | cons p before =>
        obtain ⟨rfl, htail⟩ := List.cons.inj hps
        exact ⟨before, after, htail, (List.cons.inj hbefore).2⟩
  · rintro ⟨hopens, h⟩
    refine ⟨Splits.cons_iff.2 ⟨cs, rfl, fun _ _ hp => (nomatch hp), h.toSplits⟩, ?_⟩
    intro front name d behind hd heq
    cases front with
    | nil => exact absurd ⟨name, d, behind, hd, heq⟩ hopens
    | cons c' front =>
      obtain ⟨rfl, htail⟩ := List.cons.inj heq
      obtain ⟨before, after, hps, hbefore⟩ := h.every front name d behind hd htail
      exact ⟨.char c :: before, after, by rw [hps]; rfl, by rw [List.flatMap_cons, hbefore]; rfl⟩

/-- A reference at the front is a piece. -/
theorem divides_reference_iff (hR : Naming R) : Divides R ('&' :: (name ++ ';' :: cs))
    (.reference name c :: ps) ↔ R name c ∧ Divides R cs ps := by
  have hpass : ∀ {front behind : List Char}, '&' ∉ name →
      name ++ ';' :: cs = front ++ '&' :: behind →
      ∃ more, front = name ++ ';' :: more ∧ cs = more ++ '&' :: behind := by
    intro front behind hname heq
    have htext : '&' ∉ name ++ [';'] := by simpa using hname
    have heq' : (name ++ [';']) ++ cs = front ++ '&' :: behind := by simpa using heq
    obtain ⟨more, hfront, hcs⟩ := exists_behind htext heq'
    exact ⟨more, by simpa using hfront, hcs⟩
  constructor
  · intro h
    obtain ⟨rest, hrest, hnames, hsplits⟩ := Splits.cons_iff.1 h.toSplits
    obtain rfl : cs = rest := by simpa [Piece.written] using hrest
    have hc := hnames name c rfl
    refine ⟨hc, hsplits, fun front m d behind hd heq => ?_⟩
    obtain ⟨before, after, hps, hbefore⟩ := h.every ('&' :: (name ++ ';' :: front)) m d behind hd
      (by rw [heq]; simp)
    cases before with
    | nil => cases hbefore
    | cons p before =>
      obtain ⟨rfl, htail⟩ := List.cons.inj hps
      refine ⟨before, after, htail, ?_⟩
      simpa [Piece.written] using hbefore
  · rintro ⟨hc, h⟩
    refine ⟨Splits.cons_iff.2 ⟨cs, by simp [Piece.written], ?_, h.toSplits⟩, ?_⟩
    · rintro _ _ ⟨⟩
      exact hc
    · intro front m d behind hd heq
      cases front with
      | nil =>
        obtain ⟨rfl, -⟩ := name_unique (hR.plain hc).2 (hR.plain hd).2 (List.cons.inj heq).2
        obtain rfl := hR.unique hc hd
        exact ⟨[], ps, rfl, rfl⟩
      | cons c' front =>
        obtain ⟨rfl, htail⟩ := List.cons.inj heq
        obtain ⟨more, rfl, hcs⟩ := hpass (hR.plain hc).1 htail
        obtain ⟨before, after, hps, hbefore⟩ := h.every more m d behind hd hcs
        refine ⟨.reference name c :: before, after, by rw [hps]; rfl, ?_⟩
        rw [List.flatMap_cons, hbefore]
        simp [Piece.written]

/-- What stands behind some of the pieces is divided by the others. -/
theorem Divides.drop (hR : Naming R) (h : Divides R cs (ps ++ qs)) :
    Divides R (qs.flatMap Piece.written) qs := by
  induction ps generalizing cs with
  | nil =>
    obtain rfl := h.written
    exact h
  | cons p ps ih =>
    obtain ⟨rest, rfl, -, -⟩ := Splits.cons_iff.1 h.toSplits
    cases p with
    | char c => exact ih (divides_char_iff.1 h).2
    | reference name c => exact ih ((divides_reference_iff hR).1 (by simpa [Piece.written] using h)).2

/-! ### The one division -/

/-- A text begins with a reference or with a character at which none begins. -/
theorem induction_references {motive : List Char → Prop} (R : List Char → Char → Prop) (nil : motive [])
    (reference : ∀ name c cs, R name c → motive cs → motive ('&' :: (name ++ ';' :: cs)))
    (char : ∀ c cs, ¬ Opens R (c :: cs) → motive cs → motive (c :: cs)) (cs : List Char) : motive cs := by
  induction hn : cs.length using Nat.strong_induction_on generalizing cs with
  | _ n ih =>
    subst hn
    cases cs with
    | nil => exact nil
    | cons c cs =>
      by_cases hopens : Opens R (c :: cs)
      · obtain ⟨name, d, behind, hd, heq⟩ := hopens
        rw [heq] at ih ⊢
        refine reference name d behind hd (ih _ ?_ behind rfl)
        simp only [List.length_cons, List.length_append]
        omega
      · exact char c cs hopens (ih _ (Nat.lt_succ_self _) cs rfl)

theorem exists_divides (hR : Naming R) (cs : List Char) : ∃ ps, Divides R cs ps := by
  induction cs using induction_references R with
  | nil => exact ⟨[], .nil⟩
  | reference name c cs hc ih =>
    obtain ⟨ps, h⟩ := ih
    exact ⟨.reference name c :: ps, (divides_reference_iff hR).2 ⟨hc, h⟩⟩
  | char c cs hopens ih =>
    obtain ⟨ps, h⟩ := ih
    exact ⟨.char c :: ps, divides_char_iff.2 ⟨hopens, h⟩⟩

/-- A text in front without an ampersand has no reference in it. -/
theorem Splits.drop_plain {front : List Char} (hfront : '&' ∉ front) (h : Splits R (front ++ cs) ps) :
    ∃ more, ps = front.map Piece.char ++ more ∧ Splits R cs more := by
  induction front generalizing ps with
  | nil => exact ⟨ps, rfl, h⟩
  | cons d front ih =>
    obtain ⟨hd, hfront⟩ := not_or.1 fun hmem => hfront (List.mem_cons.2 hmem)
    cases ps with
    | nil => cases h.written
    | cons p ps =>
      obtain ⟨rest, hrest, -, hsplits⟩ := Splits.cons_iff.1 h
      cases p with
      | reference name c => exact absurd (List.cons.inj hrest).1.symm hd
      | char c =>
        obtain ⟨rfl, rfl⟩ := List.cons.inj hrest
        obtain ⟨more, rfl, hmore⟩ := ih hfront hsplits
        exact ⟨more, rfl, hmore⟩

/-- The division with all references has the fewest pieces, and no other has as few. -/
theorem Divides.length_le (hR : Naming R) (h : Divides R cs qs) (hps : Splits R cs ps) :
    qs.length ≤ ps.length ∧ (ps.length = qs.length → ps = qs) := by
  induction qs generalizing cs ps with
  | nil =>
    obtain rfl : [] = cs := h.written
    obtain rfl := Splits.nil_iff.1 hps
    exact ⟨le_rfl, fun _ => rfl⟩
  | cons q qs ih =>
    obtain ⟨rest, rfl, hq, -⟩ := Splits.cons_iff.1 h.toSplits
    cases ps with
    | nil => exact absurd (List.append_eq_nil_iff.1 hps.written.symm).1 q.written_ne_nil
    | cons p ps =>
      obtain ⟨rest', hrest', hp, hsplits⟩ := Splits.cons_iff.1 hps
      have hsame : rest' = rest → Divides R rest qs → p = q →
          (q :: qs).length ≤ (p :: ps).length ∧
            ((p :: ps).length = (q :: qs).length → p :: ps = q :: qs) := by
        rintro rfl hdivides rfl
        obtain ⟨hle, heq⟩ := ih hdivides hsplits
        exact ⟨Nat.succ_le_succ hle, fun hlength => by rw [heq (Nat.succ.inj hlength)]⟩
      cases q with
      | char c =>
        obtain ⟨hopens, hdivides⟩ := divides_char_iff.1 h
        cases p with
        | char d =>
          obtain ⟨rfl, heq⟩ := List.cons.inj hrest'
          exact hsame heq.symm hdivides rfl
        | reference name d =>
          exact absurd ⟨name, d, rest', hp name d rfl, by simpa [Piece.written] using hrest'⟩ hopens
      | reference name c =>
        have hc := hq name c rfl
        have hdivides : Divides R rest qs :=
          ((divides_reference_iff hR).1 (by simpa [Piece.written] using h)).2
        cases p with
        | reference m d =>
          have hd := hp m d rfl
          have htail : name ++ ';' :: rest = m ++ ';' :: rest' := by simpa [Piece.written] using hrest'
          obtain ⟨rfl, heq⟩ := name_unique (hR.plain hc).2 (hR.plain hd).2 htail
          exact hsame heq.symm hdivides (by rw [hR.unique hc hd])
        | char d =>
          -- the characters of the reference are pieces of their own
          obtain rfl : name ++ ';' :: rest = rest' := by
            simpa [Piece.written] using (List.cons.inj hrest').2
          have hfront : '&' ∉ name ++ [';'] := by simpa using (hR.plain hc).1
          obtain ⟨more, rfl, hmore⟩ := Splits.drop_plain hfront (by simpa using hsplits)
          have hle := (ih hdivides hmore).1
          simp only [List.length_cons, List.length_append, List.length_map]
          exact ⟨by omega, fun hlength => by omega⟩

theorem Divides.unique (hR : Naming R) (h : Divides R cs ps) (h' : Divides R cs qs) : ps = qs :=
  (h'.length_le hR h.toSplits).2
    (le_antisymm (h.length_le hR h'.toSplits).1 (h'.length_le hR h.toSplits).1)

/-- With more names, the pieces are decoded to the same text exactly if none of the names that were
    added occurs in a reference. -/
theorem Divides.decoded_eq_iff {R' : List Char → Char → Prop} (hR' : Naming R')
    (hle : ∀ name c, R name c → R' name c) (h : Divides R cs ps) (h' : Divides R' cs qs) :
    qs.map Piece.decoded = ps.map Piece.decoded ↔
      ∀ name c, R' name c → ¬ R name c → ¬ '&' :: (name ++ [';']) <:+: cs := by
  have hsplits : Splits R' cs ps := ⟨h.written, fun name c hmem => hle name c (h.names name c hmem)⟩
  constructor
  · rintro heq name c hname hnew ⟨front, behind, hcs⟩
    have hlength : ps.length = qs.length := by simpa using (congrArg List.length heq).symm
    obtain ⟨before, after, hqs, -⟩ := h'.every front name c behind hname (by rw [← hcs]; simp)
    have hmem : .reference name c ∈ ps := by
      rw [(h'.length_le hR' hsplits).2 hlength, hqs]
      simp
    exact hnew (h.names name c hmem)
  · intro hnone
    have hdivides : Divides R' cs ps := by
      refine ⟨hsplits, fun front name c behind hname hcs => ?_⟩
      by_cases hold : R name c
      · exact h.every front name c behind hold hcs
      · exact absurd ⟨front, behind, by rw [hcs]; simp⟩ (hnone name c hname hold)
    rw [hdivides.unique hR' h']

theorem existsUnique_divides (hR : Naming R) (cs : List Char) : ∃! ps, Divides R cs ps := by
  obtain ⟨ps, h⟩ := exists_divides hR cs
  exact ⟨ps, h, fun qs h' => h'.unique hR h⟩

end Pieces

end HandlerScript.Markup
