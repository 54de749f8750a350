import HandlerScript.Proofs.Markup.Elements

/-! Reading documents.

    The blanks of a document can be divided in more than one way: those before the root belong to the
    front of the document or stand between comments, as one likes. Reading takes each run of them
    whole. What it finds is the same, since the root begins with a bracket and a letter, and neither
    a blank nor a comment nor a declaration does. -/

namespace HandlerScript.Markup

open Text (Stops stops_nil stops_cons)

/-! ### Blanks and comments -/

section Misc

variable {cs rest s : List Char} {fuel : Nat}

theorem SectionAt.stops_isSpace {opening closing : String} {body : List Char}
    (h : SectionAt opening closing cs body rest) (hopening : ∃ tail, opening.toList = '<' :: tail) :
    Stops isSpace cs := by
  obtain ⟨tail, htail⟩ := hopening
  rw [h.split, htail]
  exact stops_cons (by decide)

theorem MiscAt.of_spaces (hs : Spaces s) (h : MiscAt cs rest) : MiscAt (s ++ cs) rest := by
  cases s with
  | nil => exact h
  | cons c s => exact .spaces (List.cons_ne_nil c s) hs h

/-- The blanks before blanks and comments can be left out. -/
theorem MiscAt.skipSpaces (h : MiscAt cs rest) (hrest : Stops isSpace rest) :
    MiscAt (skipSpaces cs) rest := by
  induction h with
  | nil cs =>
    rw [skipSpaces_of_stops hrest]
    exact .nil cs
  | spaces _ hs _ ih =>
    rw [skipSpaces_append hs]
    exact ih hrest
  | comment hsection hmisc _ =>
    rw [skipSpaces_of_stops (hsection.stops_isSpace ⟨_, rfl⟩)]
    exact .comment hsection hmisc

theorem skipMisc_sound : ∀ {fuel : Nat} {cs : List Char}, MiscAt cs (skipMisc fuel cs)
  | 0, cs => .nil cs
  | fuel + 1, cs => by
    obtain ⟨s, hs, hcs, -⟩ := exists_spaces cs
    rw [skipMisc]
    split
    · rename_i body mid hcomment
      rw [hcs]
      exact .of_spaces hs (.comment (section?_eq_some_iff.1 hcomment) skipMisc_sound)
    · have hmisc := MiscAt.of_spaces hs (.nil (skipSpaces cs))
      rwa [← hcs] at hmisc

/-- Blanks and comments are skipped up to a text that begins with neither. -/
theorem skipMisc_complete (h : MiscAt cs rest) (hspace : Stops isSpace rest)
    (hcomment : ¬ "<!--".toList <+: rest) :
    ∀ {fuel : Nat}, cs.length ≤ fuel → skipMisc fuel cs = rest := by
  induction h with
  | nil cs =>
    intro fuel _
    have hnone : comment? cs = none := section?_eq_none hcomment
    cases fuel with
    | zero => rfl
    | succ fuel => rw [skipMisc, skipSpaces_of_stops hspace, hnone]
  | @spaces s cs rest hne hs _ ih =>
    intro fuel hfuel
    have := List.length_pos_iff.2 hne
    rw [List.length_append] at hfuel
    cases fuel with
    | zero => omega
    | succ fuel =>
      have hskip : skipMisc (fuel + 1) (s ++ cs) = skipMisc (fuel + 1) cs := by
        rw [skipMisc, skipMisc, skipSpaces_append hs]
      rw [hskip]
      exact ih hspace hcomment (by omega)
  | @comment cs body mid rest hsection _ ih =>
    intro fuel hfuel
    have := hsection.length_lt (by decide)
    have hsome : comment? cs = some (body, mid) := section?_eq_some_iff.2 hsection
    cases fuel with
    | zero => omega
    | succ fuel =>
      rw [skipMisc, skipSpaces_of_stops (hsection.stops_isSpace ⟨_, rfl⟩), hsome]
      exact ih hspace hcomment (by omega)

end Misc

/-! ### Documents -/

section Documents

variable {source cs start : List Char} {root : Item}

theorem DeclarationAt.length_le {front behind : List Char} (h : DeclarationAt front behind) :
    behind.length ≤ front.length := by
  cases h with
  | none => exact le_rfl
  | some hsection => exact (hsection.length_lt (by decide)).le

theorem MiscAt.length_le {rest : List Char} (h : MiscAt cs rest) : rest.length ≤ cs.length := by
  induction h with
  | nil => exact le_rfl
  | spaces _ _ _ ih =>
    rw [List.length_append]
    omega
  | comment hsection _ ih => exact ih.trans (hsection.length_lt (by decide)).le

theorem declarationAt_skipDeclaration (cs : List Char) : DeclarationAt cs (skipDeclaration cs) := by
  rw [skipDeclaration]
  split
  · rename_i hsection
    exact .some (section?_eq_some_iff.1 hsection)
  · exact .none cs

/-- No declaration begins where a root or a comment does. -/
theorem skipDeclaration_of_miscAt (h : MiscAt cs start) (hcs : Stops isSpace cs) {c : Char}
    {tail : List Char} (hstart : start = '<' :: c :: tail) (hc : isNameStart c = true) :
    skipDeclaration cs = cs := by
  have hno : ¬ "<?".toList <+: cs := by
    cases h with
    | nil =>
      rw [hstart]
      exact not_isPrefix_bracket rfl (by decide) hc
    | @spaces s cs _ hne hs =>
      obtain ⟨d, s, rfl⟩ := List.exists_cons_of_ne_nil hne
      exact absurd (hs d List.mem_cons_self) (by rw [hcs d rfl]; decide)
    | comment hsection =>
      rintro ⟨behind, hbehind⟩
      rw [hsection.split] at hbehind
      exact absurd (List.cons.inj (List.cons.inj hbehind).2).1 (by decide)
  rw [skipDeclaration, section?_eq_none hno]

/-- What is read as a document is derived: the blanks, the declaration and the comments that were
    skipped stand where the grammar has them. -/
theorem document_sound (h : document source = .ok root) : Derives source root := by
  obtain ⟨spaces, hspaces, hsource, -⟩ := exists_spaces source
  obtain ⟨⟨root', rest⟩, helement, h⟩ := bind_eq_ok_iff.1 h
  dsimp only at h
  split at h
  · rename_i hnil
    cases h
    exact .intro hsource hspaces (declarationAt_skipDeclaration _) skipMisc_sound
      ((reading_sound _).1 helement) (hnil ▸ skipMisc_sound)
  · cases h

/-- The place where the root begins is found. -/
theorem skipMisc_front {spaces front behind : List Char} {c : Char} {tail : List Char}
    (hspaces : Spaces spaces) (hdeclaration : DeclarationAt front behind)
    (hbefore : MiscAt behind start) (hstart : start = '<' :: c :: tail) (hc : isNameStart c = true) :
    skipMisc (skipDeclaration (skipSpaces (spaces ++ front))).length
      (skipDeclaration (skipSpaces (spaces ++ front))) = start := by
  have hspace : Stops isSpace start := hstart ▸ stops_cons (by decide)
  have hcomment : ¬ "<!--".toList <+: start :=
    hstart ▸ not_isPrefix_bracket rfl (by decide) hc
  rw [skipSpaces_append hspaces]
  cases hdeclaration with
  | none =>
    have hmisc := hbefore.skipSpaces hspace
    obtain ⟨-, -, -, hstops⟩ := exists_spaces front
    rw [skipDeclaration_of_miscAt hmisc hstops hstart hc]
    exact skipMisc_complete hmisc hspace hcomment le_rfl
  | some hsection =>
    have hskip : skipDeclaration front = behind := by
      rw [skipDeclaration, section?_eq_some_iff.2 hsection]
    rw [skipSpaces_of_stops (hsection.stops_isSpace ⟨_, rfl⟩), hskip]
    exact skipMisc_complete hbefore hspace hcomment le_rfl

theorem document_complete (h : Derives source root) : document source = .ok root := by
  obtain @⟨spaces, front, behind, start, rest, rfl, hspaces, hdeclaration, hbefore, helement, hafter⟩ := h
  obtain ⟨c, tail, hstart, hc⟩ := helement.exists_front
  have hfuel : start.length ≤ (spaces ++ front).length + 1 := by
    have := hbefore.length_le
    have := hdeclaration.length_le
    rw [List.length_append]
    omega
  have hend : skipMisc rest.length rest = [] :=
    skipMisc_complete hafter stops_nil (by decide) le_rfl
  refine bind_eq_ok_iff.2 ⟨(root, rest), ?_, ?_⟩
  · rw [skipMisc_front hspaces hdeclaration hbefore hstart hc]
    exact (element_eq_ok_iff hfuel).2 helement
  · simp only [hend]
    rfl

/-- A document is read exactly if the grammar derives it. -/
theorem document_eq_ok_iff : document source = .ok root ↔ Derives source root :=
  ⟨document_sound, document_complete⟩

end Documents

end HandlerScript.Markup
