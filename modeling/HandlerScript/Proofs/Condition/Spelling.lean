import HandlerScript.Proofs.Condition.Words

/-! The spelling of operators.

    An operator may be written as a symbol, as a word, or with references to the characters of the
    symbol. References are replaced one name after the other over the whole text. A text in which none
    occurs is not changed by that, and one in which every operator character was written as a reference
    is restored: while the first names are replaced, the references of the others stay apart from what
    is already plain, because a reference begins with an ampersand, ends with a semicolon and has neither
    inside. Respelling words makes no reference, so normalizing twice is normalizing once. -/

namespace HandlerScript.Condition

/-! ### References -/

/-- A reference by its name. -/
def referenceTo (name : List Char) : List Char := '&' :: (name ++ [';'])

/-- The characters that have references, and their names, in the order in which they are replaced. -/
def references : List (Char × List Char) :=
  [('&', "amp".toList), ('<', "lt".toList), ('>', "gt".toList), ('"', "quot".toList)]

/-- A character as a reference, if it has one among `refs`. -/
def writtenBy : List (Char × List Char) → Char → List Char
  | [], c => [c]
  | (x, name) :: refs, c => if c = x then referenceTo name else writtenBy refs c

/-- Replaces references, one name after the other. -/
def replaceAll (refs : List (Char × List Char)) (cs : List Char) : List Char :=
  refs.foldl (fun cs r => Text.replace (referenceTo r.2) [r.1] cs) cs

theorem unescape_eq (cs : List Char) : unescape cs = replaceAll references cs := rfl

/-- References that can be told apart: one for each character, of different names, which have no
    ampersand and no semicolon in them. -/
structure Distinct (refs : List (Char × List Char)) : Prop where
  chars : (refs.map (·.1)).Nodup
  names : (refs.map (·.2)).Nodup
  plain : ∀ r ∈ refs, '&' ∉ r.2 ∧ ';' ∉ r.2

theorem distinct_references : Distinct references where
  chars := by decide
  names := by decide
  plain := by decide

theorem Distinct.tail {r : Char × List Char} {refs : List (Char × List Char)}
    (h : Distinct (r :: refs)) : Distinct refs where
  chars := (List.nodup_cons.1 h.chars).2
  names := (List.nodup_cons.1 h.names).2
  plain r hr := h.plain r (List.mem_cons_of_mem _ hr)

section Write

variable {refs : List (Char × List Char)} {x c : Char} {name cs : List Char}

theorem writtenBy_cases (refs : List (Char × List Char)) (c : Char) :
    writtenBy refs c = [c] ∨ ∃ r ∈ refs, writtenBy refs c = referenceTo r.2 := by
  induction refs with
  | nil => exact .inl rfl
  | cons r refs ih =>
    rw [writtenBy]
    split
    · exact .inr ⟨r, List.mem_cons_self, rfl⟩
    · rcases ih with h | ⟨r', hr', h⟩
      · exact .inl h
      · exact .inr ⟨r', List.mem_cons_of_mem _ hr', h⟩

theorem writtenBy_of_not_mem (h : c ∉ refs.map (·.1)) : writtenBy refs c = [c] := by
  induction refs with
  | nil => rfl
  | cons r refs ih =>
    obtain ⟨hr, hrefs⟩ := not_or.1 fun hmem => h (List.mem_cons.2 hmem)
    rw [writtenBy, if_neg hr, ih hrefs]

/-- A front without ampersand was written with no references in it. -/
theorem prefix_of_prefix_flatMap {front : List Char} (hfront : '&' ∉ front)
    (h : front <+: cs.flatMap (writtenBy refs)) : front <+: cs := by
  induction front generalizing cs with
  | nil => exact List.nil_prefix
  | cons d front ih =>
    obtain ⟨hd, hfront⟩ := not_or.1 fun hmem => hfront (List.mem_cons.2 hmem)
    cases cs with
    | nil => exact absurd (List.prefix_nil.1 h) (List.cons_ne_nil d front)
    | cons c cs =>
      rw [List.flatMap_cons] at h
      rcases writtenBy_cases refs c with hc | ⟨r, -, hc⟩
      · rw [hc, List.singleton_append, List.cons_prefix_cons] at h
        exact List.cons_prefix_cons.2 ⟨h.1, ih hfront h.2⟩
      · rw [hc, referenceTo, List.cons_append, List.cons_prefix_cons] at h
        exact absurd h.1.symm hd

/-- Two references at the front of one text have one name. -/
theorem name_eq_of_referenceTo {m : List Char} (hname : ';' ∉ name) (hm : ';' ∉ m) {rest : List Char}
    (h : referenceTo name <+: referenceTo m ++ rest) : name = m := by
  obtain ⟨more, hmore⟩ := h
  have htail : name ++ ';' :: more = m ++ ';' :: rest := by simpa [referenceTo] using hmore
  have hcut : Text.cut? [';'] (m ++ ';' :: rest) = some (name, more) :=
    Text.cut?_char_eq_some_iff.2 ⟨htail.symm, hname⟩
  have hcut' : Text.cut? [';'] (m ++ ';' :: rest) = some (m, rest) :=
    Text.cut?_char_eq_some_iff.2 ⟨rfl, hm⟩
  exact congrArg Prod.fst (Option.some.inj (hcut.symm.trans hcut'))

/-- A reference by another name stays. -/
theorem replace_other {m new : List Char} (hname : ';' ∉ name) (hm : ';' ∉ m) (hamp : '&' ∉ m)
    (hother : name ≠ m) :
    Text.replace (referenceTo name) new (referenceTo m ++ cs) =
      referenceTo m ++ Text.replace (referenceTo name) new cs := by
  have hno : ¬ referenceTo name <+: '&' :: (m ++ [';'] ++ cs) := fun hprefix =>
    hother (name_eq_of_referenceTo hname hm hprefix)
  have hinside : '&' ∉ m ++ [';'] := by simpa using hamp
  calc Text.replace (referenceTo name) new (referenceTo m ++ cs)
    _ = '&' :: Text.replace (referenceTo name) new (m ++ [';'] ++ cs) := Text.replace_cons hno
    _ = referenceTo m ++ Text.replace (referenceTo name) new cs :=
      congrArg ('&' :: ·) (Text.replace_append_of_not_mem hinside cs)

/-- Replacing one name in a text that does not have it restores its character, and leaves the
    references to others as they are. -/
theorem replace_writtenBy (h : Distinct ((x, name) :: refs)) (hnone : ¬ referenceTo name <:+: cs) :
    Text.replace (referenceTo name) [x] (cs.flatMap (writtenBy ((x, name) :: refs))) =
      cs.flatMap (writtenBy refs) := by
  obtain ⟨hamp, hsemi⟩ := h.plain _ List.mem_cons_self
  induction cs with
  | nil => exact Text.replace_nil _ _
  | cons c cs ih =>
    rw [List.infix_cons_iff, not_or] at hnone
    rw [List.flatMap_cons, List.flatMap_cons, ← ih hnone.2]
    by_cases hc : c = x
    · have hx : writtenBy refs x = [x] := writtenBy_of_not_mem (List.nodup_cons.1 h.chars).1
      have hne : referenceTo name ≠ [] := List.cons_ne_nil _ _
      rw [hc, hx, writtenBy, if_pos rfl, Text.replace_append hne]
    · rw [writtenBy, if_neg hc]
      rcases writtenBy_cases refs c with hself | ⟨r, hr, href⟩
      · rw [hself, List.singleton_append, List.singleton_append]
        refine Text.replace_cons fun hprefix => ?_
        -- the rest of the reference would be plain, so it would stand in the text itself
        obtain ⟨hc, hrest⟩ := List.cons_prefix_cons.1 hprefix
        have hplain : '&' ∉ name ++ [';'] := by simpa using hamp
        exact hnone.1 (List.cons_prefix_cons.2 ⟨hc, prefix_of_prefix_flatMap hplain hrest⟩)
      · obtain ⟨hamp', hsemi'⟩ := h.plain r (List.mem_cons_of_mem _ hr)
        have hother : name ≠ r.2 := fun heq =>
          (List.nodup_cons.1 h.names).1 (List.mem_map.2 ⟨r, hr, heq.symm⟩)
        rw [href, replace_other hsemi hsemi' hamp' hother]

theorem replaceAll_writtenBy (h : Distinct refs) (hnone : ∀ r ∈ refs, ¬ referenceTo r.2 <:+: cs) :
    replaceAll refs (cs.flatMap (writtenBy refs)) = cs := by
  induction refs with
  | nil => exact List.flatMap_singleton' cs
  | cons r refs ih =>
    obtain ⟨hr, hrefs⟩ := List.forall_mem_cons.1 hnone
    rw [replaceAll, List.foldl_cons, replace_writtenBy h hr]
    exact ih h.tail hrefs

theorem replaceAll_of_none (hnone : ∀ r ∈ refs, ¬ referenceTo r.2 <:+: cs) :
    replaceAll refs cs = cs := by
  induction refs with
  | nil => rfl
  | cons r refs ih =>
    obtain ⟨hr, hrefs⟩ := List.forall_mem_cons.1 hnone
    rw [replaceAll, List.foldl_cons, Text.replace_of_not_infix hr]
    exact ih hrefs

end Write

/-! ### Escaped texts -/

/-- An operator character as a reference, any other character as itself. -/
def escapeChar (c : Char) : List Char :=
  if c = '&' then "&amp;".toList
  else if c = '<' then "&lt;".toList
  else if c = '>' then "&gt;".toList
  else if c = '"' then "&quot;".toList
  else [c]

/-- A text with its operator characters written as references. -/
def escape (cs : List Char) : List Char := cs.flatMap escapeChar

/-- A text in which no reference to an operator character occurs. -/
def Unescaped (cs : List Char) : Prop := ∀ r ∈ references, ¬ referenceTo r.2 <:+: cs

section Unescaped

variable {cs : List Char}

theorem escapeChar_eq : escapeChar = writtenBy references := rfl

theorem unescape_of_unescaped (h : Unescaped cs) : unescape cs = cs := by
  rw [unescape_eq, replaceAll_of_none h]

theorem unescape_escape (h : Unescaped cs) : unescape (escape cs) = cs := by
  rw [unescape_eq, escape, escapeChar_eq, replaceAll_writtenBy distinct_references h]

/-- A text that was normalized has references only where they were before. -/
theorem Unescaped.respellFrom (h : Unescaped cs) : Unescaped (respellFrom {} cs) := by
  have hplain : ∀ r ∈ references, ';' ∈ referenceTo r.2 ∧
      (referenceTo r.2).all (!Text.isBlank ·) = true := by decide
  intro r hr hinfix
  obtain ⟨hmark, hall⟩ := hplain r hr
  have hblanks : ∀ c ∈ referenceTo r.2, Text.isBlank c = false := by
    simpa only [Bool.not_eq_true'] using List.all_eq_true.1 hall
  exact h r hr (infix_of_infix_respellFrom hmark hblanks hinfix)

theorem normalize_of_unescaped (h : Unescaped cs) : normalize cs = Condition.respellFrom {} cs := by
  rw [normalize, unescape_of_unescaped h]

theorem normalize_escape (h : Unescaped cs) : normalize (escape cs) = normalize cs := by
  rw [normalize_of_unescaped h, normalize, unescape_escape h]

theorem normalize_normalize (h : Unescaped cs) : normalize (normalize cs) = normalize cs := by
  rw [normalize_of_unescaped h, normalize_of_unescaped h.respellFrom, respellFrom_respellFrom]

end Unescaped

/-- The spelling of operators does not matter to a text in which no reference occurs: normalizing it
    changes nothing about whether it holds and has nothing left to do, and neither changes when its
    operator characters are written as references. -/
theorem holdsText_spelling (text : String)
    (h : ∀ phrase ∈ ["&amp;", "&lt;", "&gt;", "&quot;"], ¬ phrase.toList <:+: text.toList) :
    holdsText (String.ofList (normalize text.toList)) = holdsText text ∧
    normalize (normalize text.toList) = normalize text.toList ∧
    normalize (escape text.toList) = normalize text.toList ∧
    holdsText (String.ofList (escape text.toList)) = holdsText text := by
  have hphrases : ∀ r ∈ references, ∃ phrase ∈ ["&amp;", "&lt;", "&gt;", "&quot;"],
      phrase.toList = referenceTo r.2 := by decide +kernel
  have hnone : Unescaped text.toList := by
    intro r hr
    obtain ⟨phrase, hphrase, heq⟩ := hphrases r hr
    exact heq ▸ h phrase hphrase
  have hagain := normalize_normalize hnone
  have hescape := normalize_escape hnone
  refine ⟨?_, hagain, hescape, ?_⟩
  · rw [holdsText, String.toList_ofList, hagain, holdsText]
  · rw [holdsText, String.toList_ofList, hescape, holdsText]

theorem holdsText_spelling_open_quote :
    (∀ phrase ∈ ["&amp;", "&lt;", "&gt;", "&quot;"],
      ¬ phrase.toList <:+: "a AND 3 lt \"5 & b lt 7".toList) ∧
    normalize "a AND 3 lt \"5 & b lt 7".toList = "a && 3 < \"5 & b lt 7".toList ∧
    normalize (escape "a AND 3 lt \"5 & b lt 7".toList) = "a && 3 < \"5 & b lt 7".toList ∧
    normalize "a && 3 < \"5 & b lt 7".toList = "a && 3 < \"5 & b lt 7".toList ∧
    holdsText "a && 3 < \"5 & b lt 7" = holdsText "a AND 3 lt \"5 & b lt 7" := by
  have h : ∀ phrase ∈ ["&amp;", "&lt;", "&gt;", "&quot;"],
      ¬ phrase.toList <:+: "a AND 3 lt \"5 & b lt 7".toList := by decide +kernel
  have hnormal : normalize "a AND 3 lt \"5 & b lt 7".toList = "a && 3 < \"5 & b lt 7".toList := by
    decide +kernel
  obtain ⟨hholds, hagain, hescape, -⟩ := holdsText_spelling _ h
  rw [hnormal] at hholds hagain hescape
  exact ⟨h, hnormal, hescape, hagain, hholds⟩

end HandlerScript.Condition
