import HandlerScript.Proofs.Condition.Quotes
import HandlerScript.Proofs.Markup.References
import Mathlib.Data.List.Nodup

/-! References in conditions.

    A condition is read with four names of references, one name after the other over the whole text. Where
    a name is replaced by a character that can be no part of a reference, the references of the other
    names stay the same ones, so the order of these names does not matter and the text is read as if in
    one pass. But the ampersand comes first, and it begins references: an ampersand that was written as a
    reference is read again with what stands behind it. So conditions and documents read the same text
    alike exactly if the name of no other reference follows a written ampersand. -/

namespace HandlerScript.Condition

open Markup (Divides Naming Opens Piece Splits Without divides_char_iff divides_reference_iff
  exists_divides)

/-! ### One name -/

/-- A piece with the references of one name turned into their characters. -/
def turned (name : List Char) : Piece → Piece
  | .char c => .char c
  | .reference m c => if m = name then .char c else .reference m c

section Turned

variable {R : List Char → Char → Prop} {name cs : List Char} {x : Char} {ps : List Piece}

theorem decoded_turned (name : List Char) (p : Piece) : (turned name p).decoded = p.decoded := by
  cases p with
  | char c => rfl
  | reference m c =>
    rw [turned]
    split <;> rfl

theorem map_decoded_turned (name : List Char) (ps : List Piece) :
    (ps.map (turned name)).map Piece.decoded = ps.map Piece.decoded := by
  rw [List.map_map]
  exact List.map_congr_left fun p _ => decoded_turned name p

/-- Replacing a name turns its references into characters. -/
theorem replace_eq_turned (hR : Naming R) (hx : R name x) (h : Divides R cs ps) :
    Text.replace (referenceTo name) [x] cs = (ps.map (turned name)).flatMap Piece.written := by
  induction ps generalizing cs with
  | nil =>
    obtain rfl : [] = cs := h.written
    exact Text.replace_nil _ _
  | cons p ps ih =>
    obtain ⟨rest, rfl, hp, -⟩ := Splits.cons_iff.1 h.toSplits
    rw [List.map_cons, List.flatMap_cons]
    cases p with
    | char c =>
      obtain ⟨hopens, hrest⟩ := divides_char_iff.1 h
      rw [← ih hrest]
      refine Text.replace_cons fun ⟨behind, hbehind⟩ => hopens ⟨name, x, behind, hx, ?_⟩
      rw [← hbehind, referenceTo]
      simp
    | reference m c =>
      have hm := hp m c rfl
      obtain ⟨-, hrest⟩ := (divides_reference_iff hR).1 (by simpa [Piece.written] using h)
      rw [← ih hrest, turned]
      by_cases hname : m = name
      · subst hname
        rw [if_pos rfl, hR.unique hm hx]
        exact Text.replace_append (List.cons_ne_nil _ _) rest
      · rw [if_neg hname]
        exact replace_other (hR.plain hx).2 (hR.plain hm).2 (hR.plain hm).1 (Ne.symm hname)

/-- What begins with neither an ampersand nor a turned character was there before. -/
theorem prefix_of_prefix_turned {front : List Char} (hamp : '&' ∉ front) (hfront : x ∉ front)
    (hps : ∀ c, .reference name c ∈ ps → c = x)
    (h : front <+: (ps.map (turned name)).flatMap Piece.written) :
    front <+: ps.flatMap Piece.written := by
  induction front generalizing ps with
  | nil => exact List.nil_prefix
  | cons d front ih =>
    obtain ⟨hd, hamp⟩ := not_or.1 fun hmem => hamp (List.mem_cons.2 hmem)
    obtain ⟨hdx, hfront⟩ := not_or.1 fun hmem => hfront (List.mem_cons.2 hmem)
    cases ps with
    | nil => exact absurd (List.prefix_nil.1 h) (List.cons_ne_nil d front)
    | cons p ps =>
      rw [List.map_cons, List.flatMap_cons] at h
      cases p with
      | char c =>
        obtain ⟨hc, h⟩ := List.cons_prefix_cons.1 h
        have hrest := ih hamp hfront (fun c hc => hps c (List.mem_cons_of_mem _ hc)) h
        exact List.cons_prefix_cons.2 ⟨hc, hrest⟩
      | reference m c =>
        rw [turned] at h
        split at h
        · rename_i hm
          subst hm
          have hdc := (List.cons_prefix_cons.1 h).1
          exact absurd (hdc.trans (hps c List.mem_cons_self)).symm hdx
        · exact absurd (List.cons_prefix_cons.1 h).1.symm hd

/-- The references of the other names stay the same ones, unless the name stands for the ampersand and
    another name follows it. -/
theorem divides_turned (hR : Naming R) (hx : R name x) (hplain : ∀ m c, R m c → x ∉ m ++ [';'])
    (hapart : ∀ m c, R m c → m ≠ name → x = '&' → ¬ referenceTo name ++ (m ++ [';']) <:+: cs)
    (h : Divides R cs ps) :
    Divides (Without R name) ((ps.map (turned name)).flatMap Piece.written) (ps.map (turned name)) := by
  induction ps generalizing cs with
  | nil => exact .nil
  | cons p ps ih =>
    obtain ⟨rest, rfl, hp, hsplits⟩ := Splits.cons_iff.1 h.toSplits
    have hmore : ∀ m c, R m c → m ≠ name → x = '&' → ¬ referenceTo name ++ (m ++ [';']) <:+: rest :=
      fun m c hm hne hxamp hoccurs =>
        hapart m c hm hne hxamp (hoccurs.trans (List.suffix_append _ _).isInfix)
    -- a name that follows in the new text followed in the old one
    have hfollows : ∀ m c behind, R m c →
        (ps.map (turned name)).flatMap Piece.written = m ++ ';' :: behind → m ++ [';'] <+: rest := by
      intro m c behind hm hbehind
      have hamp : '&' ∉ m ++ [';'] := by simpa using (hR.plain hm).1
      have hprefix := prefix_of_prefix_turned hamp (hplain m c hm)
        (fun c hc => hR.unique (hsplits.names name c hc) hx) ⟨behind, by rw [hbehind]; simp⟩
      rwa [hsplits.written] at hprefix
    rw [List.map_cons, List.flatMap_cons]
    cases p with
    | char c =>
      obtain ⟨hopens, hrest⟩ := divides_char_iff.1 h
      refine divides_char_iff.2 ⟨?_, ih hmore hrest⟩
      rintro ⟨m, d, behind, ⟨hm, -⟩, heq⟩
      obtain ⟨rfl, hbehind⟩ := List.cons.inj heq
      obtain ⟨more, rfl⟩ := hfollows m d behind hm hbehind
      exact hopens ⟨m, d, more, hm, by simp⟩
    | reference m c =>
      have hm := hp m c rfl
      obtain ⟨-, hrest⟩ := (divides_reference_iff hR).1 (by simpa [Piece.written] using h)
      rw [turned]
      split
      · rename_i hname
        subst hname
        refine divides_char_iff.2 ⟨?_, ih hmore hrest⟩
        rintro ⟨m', d, behind, ⟨hm', hne⟩, heq⟩
        obtain ⟨hc, hbehind⟩ := List.cons.inj heq
        obtain ⟨more, rfl⟩ := hfollows m' d behind hm' hbehind
        refine hapart m' d hm' hne ((hR.unique hx hm).trans hc) ⟨[], more, ?_⟩
        simp [Piece.written, referenceTo]
      · rename_i hname
        have hdivides := (divides_reference_iff (hR.without name)).2 ⟨⟨hm, hname⟩, ih hmore hrest⟩
        simpa [Piece.written] using hdivides

theorem splits_turned (name : List Char) (h : Splits R cs ps) :
    Splits (Without R name) ((ps.map (turned name)).flatMap Piece.written) (ps.map (turned name)) := by
  refine ⟨rfl, fun m c hmem => ?_⟩
  obtain ⟨p, hp, hturned⟩ := List.mem_map.1 hmem
  cases p with
  | char d => cases hturned
  | reference m' d =>
    rw [turned] at hturned
    split at hturned
    · cases hturned
    · rename_i hname
      obtain ⟨rfl, rfl⟩ := Piece.reference.inj hturned
      exact ⟨h.names _ _ hp, hname⟩

/-- Where another name follows a written ampersand, there is a new reference. -/
theorem not_divides_turned {m : List Char} {c : Char} (hR : Naming R) (hx : R name '&') (hm : R m c)
    (hne : m ≠ name) (hoccurs : referenceTo name ++ (m ++ [';']) <:+: cs) (h : Divides R cs ps) :
    ¬ Divides (Without R name) ((ps.map (turned name)).flatMap Piece.written) (ps.map (turned name)) := by
  intro hturned
  obtain ⟨front, behind, rfl⟩ := hoccurs
  obtain ⟨before, after, rfl, rfl⟩ := h.every front name '&' (m ++ ';' :: behind) hx
    (by simp [referenceTo])
  have hafter : Splits R (m ++ [';'] ++ behind) after := by
    refine ⟨?_, fun m c hmem => h.names m c (by simp [hmem])⟩
    have hwritten := h.written
    simpa [Piece.written, referenceTo] using hwritten
  obtain ⟨more, rfl, -⟩ := hafter.drop_plain (by simpa using (hR.plain hm).1)
  rw [List.map_append, List.map_cons, turned, if_pos rfl] at hturned
  have hkept : ((m ++ [';']).map Piece.char).map (turned name) = (m ++ [';']).map Piece.char := by
    rw [List.map_map]
    rfl
  rw [List.map_append, hkept] at hturned
  refine (divides_char_iff.1 (hturned.drop (hR.without name))).1
    ⟨m, c, (more.map (turned name)).flatMap Piece.written, ⟨hm, hne⟩, congrArg _ ?_⟩
  change ((m ++ [';']).map Piece.char ++ more.map (turned name)).flatMap Piece.written = _
  rw [List.flatMap_append, Piece.flatMap_chars, List.append_assoc, List.singleton_append]

end Turned

/-! ### Several names -/

/-- The names of some references. -/
def NamedBy (refs : List (Char × List Char)) (name : List Char) (c : Char) : Prop := (c, name) ∈ refs

section Several

variable {refs : List (Char × List Char)} {cs : List Char} {ps : List Piece} {c : Char}

theorem naming_namedBy (h : Distinct refs) : Naming (NamedBy refs) where
  unique hc hc' := congrArg Prod.fst (List.inj_on_of_nodup_map h.names hc hc' rfl)
  plain hc := h.plain _ hc

theorem namedBy_tail {r : Char × List Char} (h : Distinct (r :: refs)) :
    Without (NamedBy (r :: refs)) r.2 = NamedBy refs := by
  funext name c
  refine propext ⟨fun ⟨hmem, hne⟩ => ?_, fun hmem => ⟨List.mem_cons_of_mem r hmem, ?_⟩⟩
  · exact (List.mem_cons.1 hmem).resolve_left fun heq => hne (congrArg Prod.snd heq)
  · rintro rfl
    exact (List.nodup_cons.1 h.names).1 (List.mem_map.2 ⟨_, hmem, rfl⟩)

theorem flatMap_written_of_plain (h : ∀ name c, .reference name c ∉ ps) :
    ps.flatMap Piece.written = ps.map Piece.decoded := by
  induction ps with
  | nil => rfl
  | cons p ps ih =>
    rw [List.flatMap_cons, ih fun name c hmem => h name c (List.mem_cons_of_mem p hmem)]
    cases p with
    | char c => rfl
    | reference name c => exact absurd List.mem_cons_self (h name c)

/-- Characters that can be no part of a reference. -/
def Apart (refs : List (Char × List Char)) : Prop :=
  ∀ r ∈ refs, r.1 ≠ '&' ∧ ∀ r' ∈ refs, r.1 ∉ r'.2 ++ [';']

/-- Names of such characters are replaced as if in one pass. -/
theorem replaceAll_eq_decoded (h : Distinct refs) (hapart : Apart refs)
    (hps : Divides (NamedBy refs) cs ps) : replaceAll refs cs = ps.map Piece.decoded := by
  induction refs generalizing cs ps with
  | nil =>
    rw [← flatMap_written_of_plain fun name c hmem => nomatch hps.names name c hmem]
    exact hps.written.symm
  | cons r refs ih =>
    obtain ⟨hr, hrefs⟩ := List.forall_mem_cons.1 hapart
    have hnaming := naming_namedBy h
    have hname : NamedBy (r :: refs) r.2 r.1 := List.mem_cons_self
    have hdivides := divides_turned hnaming hname (fun m c hm => hr.2 _ hm)
      (fun m c _ _ hamp => absurd hamp hr.1) hps
    rw [namedBy_tail h, ← replace_eq_turned hnaming hname hps] at hdivides
    rw [replaceAll, List.foldl_cons, ← map_decoded_turned r.2 ps]
    exact ih h.tail (fun r' hr' => ⟨(hrefs r' hr').1,
      fun r'' hr'' => (hrefs r' hr').2 r'' (List.mem_cons_of_mem r hr'')⟩) hdivides

theorem mem_replaceAll (h : c ∈ replaceAll refs cs) : c ∈ cs ∨ c ∈ refs.map (·.1) := by
  induction refs generalizing cs with
  | nil => exact .inl h
  | cons r refs ih =>
    rcases ih h with hmem | hmem
    · rcases Text.mem_replace hmem with hmem | hmem
      · exact .inl hmem
      · exact .inr (List.mem_cons.2 (.inl (List.mem_singleton.1 hmem)))
    · exact .inr (List.mem_cons_of_mem _ hmem)

/-- A text behind the replacements that has none of their characters was there before. -/
theorem replaceAll_eq_self (h : ∀ r ∈ refs, r.1 ∉ replaceAll refs cs) : replaceAll refs cs = cs := by
  induction refs generalizing cs with
  | nil => rfl
  | cons r refs ih =>
    obtain ⟨hr, hrefs⟩ := List.forall_mem_cons.1 h
    have hmore : replaceAll refs (Text.replace (referenceTo r.2) [r.1] cs) =
        Text.replace (referenceTo r.2) [r.1] cs := ih hrefs
    rw [replaceAll, List.foldl_cons] at hr ⊢
    rw [replaceAll] at hmore
    rw [hmore] at hr ⊢
    exact Text.replace_eq_self (List.cons_ne_nil _ _) (List.mem_singleton_self _) hr

end Several

/-! ### The ampersand -/

/-- The references that are replaced behind that of the ampersand. -/
def laterReferences : List (Char × List Char) := references.tail

section Ampersand

variable {cs name : List Char} {c : Char} {ps : List Piece}

theorem distinct_later : Distinct laterReferences := distinct_references.tail

theorem apart_later : Apart laterReferences := by
  unfold Apart
  decide

theorem named_amp : NamedBy references "amp".toList '&' := List.mem_cons_self

theorem namedBy_later : Without (NamedBy references) "amp".toList = NamedBy laterReferences :=
  namedBy_tail distinct_references

/-- Once the ampersands are replaced, the other names are read as if in one pass. -/
theorem unescape_eq_decoded (h : Divides (NamedBy laterReferences)
    (Text.replace (referenceTo "amp".toList) ['&'] cs) ps) : unescape cs = ps.map Piece.decoded :=
  replaceAll_eq_decoded distinct_later apart_later h

/-- The four names are read as if in one pass exactly if no other name follows a written ampersand. -/
theorem unescape_eq_decoded_iff (h : Divides (NamedBy references) cs ps) :
    unescape cs = ps.map Piece.decoded ↔ ∀ name c, NamedBy laterReferences name c →
      ¬ referenceTo "amp".toList ++ (name ++ [';']) <:+: cs := by
  have hnaming := naming_namedBy distinct_references
  have hreplaced := replace_eq_turned hnaming named_amp h
  obtain ⟨qs, hqs⟩ := exists_divides (naming_namedBy distinct_later)
    (Text.replace (referenceTo "amp".toList) ['&'] cs)
  constructor
  · rintro heq name c hname hoccurs
    have hsplits := splits_turned "amp".toList h.toSplits
    rw [namedBy_later, ← hreplaced] at hsplits
    -- as many pieces as the text has references and characters after the ampersands are replaced
    have hlength : (ps.map (turned "amp".toList)).length = qs.length := by
      rw [unescape_eq_decoded hqs, ← map_decoded_turned "amp".toList ps] at heq
      simpa using (congrArg List.length heq).symm
    obtain rfl := (hqs.length_le (naming_namedBy distinct_later) hsplits).2 hlength
    rw [← namedBy_later] at hname
    refine not_divides_turned hnaming named_amp hname.1 hname.2 hoccurs h ?_
    rwa [namedBy_later, ← hreplaced]
  · intro hnone
    have hdivides := divides_turned hnaming named_amp (x := '&') ?_ ?_ h
    · rw [namedBy_later, ← hreplaced] at hdivides
      rw [unescape_eq_decoded hdivides, map_decoded_turned]
    · intro m d hm
      simpa using (hnaming.plain hm).1
    · intro m d hm hne _
      exact hnone m d (namedBy_later ▸ ⟨hm, hne⟩)

end Ampersand

/-! ### Conditions and documents -/

/-- Every reference in the text has one of the four names. -/
def OnlyNamed (cs : List Char) : Prop :=
  ∀ name c, Markup.IsDecoded name c → referenceTo name <:+: cs → name ∈ references.map (·.2)

section Documents

variable {cs name : List Char} {c : Char} {ps : List Piece}

theorem isDecoded_of_namedBy (h : NamedBy references name c) : Markup.IsDecoded name c := by
  have hnamed : ∀ r ∈ references, (r.2, r.1) ∈ Markup.namedCharacters := by decide
  exact .inl (.inl (hnamed _ h))

theorem OnlyNamed.decode_eq (h : OnlyNamed cs) (hps : Divides (NamedBy references) cs ps) :
    Markup.decode cs = ps.map Piece.decoded := by
  obtain ⟨qs, hqs⟩ := exists_divides Markup.naming_isDecoded cs
  rw [hqs.decode_eq, hps.decoded_eq_iff Markup.naming_isDecoded (fun _ _ => isDecoded_of_namedBy) hqs]
  intro name c hname hnot hoccurs
  obtain ⟨⟨c', _⟩, hmem, rfl⟩ := List.mem_map.1 (h name c hname hoccurs)
  obtain rfl := Markup.naming_isDecoded.unique hname (isDecoded_of_namedBy hmem)
  exact hnot hmem

theorem isBlank_unescape (h : ∀ c ∈ cs, Text.isBlank c = false) :
    ∀ c ∈ unescape cs, Text.isBlank c = false := by
  have hrefs : ∀ r ∈ references, Text.isBlank r.1 = false := by decide
  intro c hc
  rw [unescape_eq] at hc
  rcases mem_replaceAll hc with hmem | hmem
  · exact h c hmem
  · obtain ⟨r, hr, rfl⟩ := List.mem_map.1 hmem
    exact hrefs r hr

/-- An operator word is made of letters, so it was there before the references were replaced. -/
theorem IsOperator.of_unescape (h : IsOperator (unescape cs)) : IsOperator (Markup.decode cs) := by
  have hrefs : ∀ r ∈ references, r.1.isAlpha = false := by decide
  have hsame : unescape cs = cs :=
    replaceAll_eq_self fun r hr hmem => not_isOperator_of_mem hmem (hrefs r hr) h
  rw [hsame] at h
  rwa [Markup.decode_of_not_mem fun hmem => not_isOperator_of_mem hmem rfl h]

/-- What stands between an ampersand and the next semicolon is found at one of the ends of the text. -/
theorem name_mem_tails (hname : ';' ∉ name) (h : referenceTo name <:+: cs) :
    name ∈ cs.tails.map fun t => (t.drop 1).takeWhile (· != ';') := by
  obtain ⟨front, behind, rfl⟩ := h
  refine List.mem_map.2 ⟨referenceTo name ++ behind, (List.mem_tails _ _).2 ⟨front, by simp⟩, ?_⟩
  have hplain : ∀ d ∈ name, (d != ';') = true := by
    intro d hd
    rw [bne_iff_ne]
    rintro rfl
    exact hname hd
  simp [referenceTo, List.takeWhile_append_of_pos hplain]

theorem onlyNamed_of_tails (h : ∀ name ∈ cs.tails.map fun t => (t.drop 1).takeWhile (· != ';'),
    (Markup.referent? name).isSome = true → name ∈ references.map (·.2)) : OnlyNamed cs := by
  intro name c hname hoccurs
  refine h name (name_mem_tails hname.plain.2 hoccurs) ?_
  rw [Markup.referent?_eq_some_iff.2 hname]
  rfl

theorem forall_not_blank (h : (cs.all fun c => !Text.isBlank c) = true) :
    ∀ c ∈ cs, Text.isBlank c = false := by
  simpa only [List.all_eq_true, Bool.not_eq_true'] using h

end Documents

/-- In a condition without blanks and operator words, where every reference has one of the four names,
    the ampersands are replaced first and then the other references of what has become of the text. This
    is how a document reads the text exactly if no other name follows a written ampersand. -/
theorem normalize_unescapes {cs : List Char} (hblank : ∀ c ∈ cs, Text.isBlank c = false)
    (hnames : OnlyNamed cs) (hword : ¬ IsOperator (Markup.decode cs)) :
    (∃ ps, Divides (NamedBy laterReferences) (Text.replace (referenceTo "amp".toList) ['&'] cs) ps ∧
      normalize cs = ps.map Piece.decoded) ∧
    (normalize cs = Markup.decode cs ↔ ∀ name ∈ ["lt".toList, "gt".toList, "quot".toList],
      ¬ referenceTo "amp".toList ++ (name ++ [';']) <:+: cs) := by
  have hnormal : normalize cs = unescape cs := by
    rw [normalize, respellFrom_word (isWord_of_forall (isBlank_unescape hblank) {}),
      respelled_of_not_isOperator fun h => hword h.of_unescape]
  obtain ⟨ps, hps⟩ := exists_divides (naming_namedBy distinct_references) cs
  obtain ⟨qs, hqs⟩ := exists_divides (naming_namedBy distinct_later)
    (Text.replace (referenceTo "amp".toList) ['&'] cs)
  refine ⟨⟨qs, hqs, hnormal.trans (unescape_eq_decoded hqs)⟩, ?_⟩
  rw [hnormal, hnames.decode_eq hps, unescape_eq_decoded_iff hps]
  change _ ↔ ∀ name ∈ laterReferences.map (·.2), _
  constructor
  · intro hnone name hname
    obtain ⟨⟨c, _⟩, hmem, rfl⟩ := List.mem_map.1 hname
    exact hnone _ c hmem
  · intro hnone name c hname
    exact hnone name (List.mem_map.2 ⟨(c, name), hname, rfl⟩)

/-- An ampersand that is written twice over is read once by both. -/
theorem normalize_unescapes_stray :
    normalize "R&D&lt;&amp;&amp;&amp;amp;lt&&quot;".toList = "R&D<&&&amp;lt&\"".toList := by
  have h := @normalize_unescapes "R&D&lt;&amp;&amp;&amp;amp;lt&&quot;".toList
    (forall_not_blank (by decide)) (onlyNamed_of_tails (by decide)) (by decide)
  rw [h.2.2 (by decide)]
  decide

/-- The reference of an ampersand in front of a name is read twice by conditions. -/
theorem normalize_unescapes_twice : ¬ ∀ cs, (∀ c ∈ cs, Text.isBlank c = false) → OnlyNamed cs →
    ¬ IsOperator (Markup.decode cs) → normalize cs = Markup.decode cs := by
  intro h
  have hsame := h "&amp;lt;".toList (forall_not_blank (by decide)) (onlyNamed_of_tails (by decide))
    (by decide)
  exact absurd hsame (by decide)

end HandlerScript.Condition
