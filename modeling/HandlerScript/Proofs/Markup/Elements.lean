import HandlerScript.Proofs.Markup.Tags

/-! Reading elements.

    What stands at the front of content decides what is read there: a slash behind a bracket begins a
    closing tag, an exclamation mark a comment or a literal section, a name an element, and anything
    but a bracket begins text. No two of them fit one text, so the order in which they are tried does
    not matter, and a reader with enough fuel finds every derivation. The fuel is enough once it
    exceeds the number of characters, since each item takes at least one. -/

namespace HandlerScript.Markup

open Text (span_eq_iff)

theorem bind_eq_ok_iff {ε α β : Type} {x : Except ε α} {f : α → Except ε β} {b : β} :
    x >>= f = .ok b ↔ ∃ a, x = .ok a ∧ f a = .ok b := by
  cases x with
  | error e =>
    constructor
    · intro h
      cases h
    · rintro ⟨a, ha, -⟩
      cases ha
  | ok a =>
    constructor
    · intro h
      exact ⟨a, rfl, h⟩
    · rintro ⟨a, ⟨⟩, h⟩
      exact h

/-! ### Lengths -/

section Lengths

variable {cs body rest : List Char}

theorem SectionAt.length_lt {opening closing : String} (h : SectionAt opening closing cs body rest)
    (hopening : opening.toList ≠ []) : rest.length < cs.length := by
  have := List.length_pos_iff.2 hopening
  rw [h.split]
  simp only [List.length_append]
  omega

theorem ClosingAt.length_lt {closing : ClosingTag} (h : ClosingAt cs closing rest) :
    rest.length < cs.length := by
  obtain ⟨rfl, -⟩ := h
  simp only [List.length_append, List.length_cons]
  omega

mutual

theorem ElementAt.length_lt : ∀ {cs rest : List Char} {item : Item}, ElementAt cs item rest →
    rest.length < cs.length
  | _, _, _, .closed _ hall _ => by
    have := hall.length_le
    simp only [List.length_append, List.length_cons] at *
    omega
  | _, _, _, .opened _ hall _ hcontent hclosing => by
    have := hall.length_le
    have := hcontent.length_le
    have := hclosing.length_lt
    simp only [List.length_append, List.length_cons] at *
    omega

theorem ContentAt.length_le : ∀ {cs rest : List Char} {items : List Item}, ContentAt cs items rest →
    rest.length ≤ cs.length
  | _, _, _, .nil _ => le_rfl
  | _, _, _, .comment hsection hcontent =>
    hcontent.length_le.trans (hsection.length_lt (by decide)).le
  | _, _, _, .literal hsection hcontent =>
    hcontent.length_le.trans (hsection.length_lt (by decide)).le
  | _, _, _, .element helement hcontent => hcontent.length_le.trans helement.length_lt.le
  | _, _, _, .text _ _ _ hcontent => by
    have := hcontent.length_le
    simp only [List.length_append]
    omega

end

end Lengths

/-! ### The front of content -/

section Front

variable {cs body mid rest : List Char} {fuel : Nat}

theorem content_closing : content (fuel + 1) ('<' :: '/' :: cs) =
    (closingTag cs >>= fun p => .ok ([], p.1, p.2)) := rfl

theorem content_comment (h : SectionAt "<!--" "-->" cs body rest) :
    content (fuel + 1) cs = content fuel rest := by
  have hcomment : comment? cs = some (body, rest) := section?_eq_some_iff.2 h
  obtain ⟨rfl, -⟩ := h
  rw [show "<!--".toList = ['<', '!', '-', '-'] from rfl] at hcomment ⊢
  simp only [List.cons_append] at hcomment ⊢
  rw [content, hcomment]
  simp

theorem content_literal (h : SectionAt "<![CDATA[" "]]>" cs body rest) :
    content (fuel + 1) cs =
      (content fuel rest >>= fun p => .ok (.literal body :: p.1, p.2.1, p.2.2)) := by
  have hliteral : literal? cs = some (body, rest) := section?_eq_some_iff.2 h
  have hcomment : comment? cs = none := by
    rw [h.split]
    exact section?_eq_none fun ⟨_, heq⟩ => nomatch heq
  obtain ⟨rfl, -⟩ := h
  rw [show "<![CDATA[".toList = ['<', '!', '[', 'C', 'D', 'A', 'T', 'A', '['] from rfl] at *
  simp only [List.cons_append] at hcomment hliteral ⊢
  rw [content, hcomment]
  · dsimp only
    rw [hliteral]
    rfl
  · simp

theorem content_element {c : Char} (hc : isNameStart c = true) :
    content (fuel + 1) ('<' :: c :: cs) = (element fuel ('<' :: c :: cs) >>= fun p =>
      content fuel p.2 >>= fun q => .ok (p.1 :: q.1, q.2.1, q.2.2)) := by
  have hslash : c ≠ '/' := by
    rintro rfl
    exact absurd hc (by decide)
  have hcomment : comment? ('<' :: c :: cs) = none := by
    rw [comment?, section?_eq_none (not_isPrefix_bracket rfl (by decide) hc)]
  have hliteral : literal? ('<' :: c :: cs) = none := by
    rw [literal?, section?_eq_none (not_isPrefix_bracket rfl (by decide) hc)]
  rw [content, hcomment]
  · dsimp only
    rw [hliteral]
    rfl
  · rintro rest ⟨⟩
    exact hslash rfl

theorem content_text {raw : List Char} (hne : raw ≠ []) (hraw : '<' ∉ raw)
    (hmid : ∀ c ∈ mid.head?, c = '<') :
    content (fuel + 1) (raw ++ mid) =
      (content fuel mid >>= fun p => .ok (.text raw :: p.1, p.2.1, p.2.2)) := by
  have hspan : (raw ++ mid).span (· != '<') = (raw, mid) := by
    refine span_eq_iff.2 ⟨rfl, fun c hc => ?_, fun c hc => ?_⟩
    · rw [bne_iff_ne]
      rintro rfl
      exact hraw hc
    · rw [hmid c hc]
      rfl
  obtain ⟨c, front, rfl⟩ := List.exists_cons_of_ne_nil hne
  have hc : c ≠ '<' := by
    rintro rfl
    exact hraw List.mem_cons_self
  rw [List.cons_append] at *
  rw [content, hspan]
  · rfl
  · intro rest heq _
    exact hc heq
  · exact hc

end Front

/-! ### Elements -/

section Elements

variable {cs rest : List Char} {item : Item} {fuel : Nat}

theorem element_bracket : element (fuel + 1) ('<' :: cs) = (startTag cs >>= fun p =>
    match p.2.1 with
    | .closed => .ok (.element p.1 [] none, p.2.2)
    | .opened => content fuel p.2.2 >>= fun q => .ok (.element p.1 q.1 (some q.2.1), q.2.2)) := rfl

/-- An element begins with a bracket and a letter. -/
theorem ElementAt.exists_front (h : ElementAt cs item rest) :
    ∃ c tail, cs = '<' :: c :: tail ∧ isNameStart c = true := by
  cases h with
  | @closed name mid _ _ _ hname =>
    cases name with
    | nil => exact hname.elim
    | cons c name => exact ⟨c, name ++ mid, rfl, hname.1⟩
  | @opened name mid _ _ _ _ _ _ _ hname =>
    cases name with
    | nil => exact hname.elim
    | cons c name => exact ⟨c, name ++ mid, rfl, hname.1⟩

end Elements

/-! ### Soundness -/

section Soundness

variable {fuel : Nat}

/-- What is read as an element with some fuel is derived. -/
def ElementSound (fuel : Nat) : Prop :=
  ∀ ⦃cs item rest⦄, element fuel cs = .ok (item, rest) → ElementAt cs item rest

/-- What is read as content with some fuel is derived, with the closing tag behind it. -/
def ContentSound (fuel : Nat) : Prop :=
  ∀ ⦃cs items closing rest⦄, content fuel cs = .ok (items, closing, rest) →
    ∃ last, ContentAt cs items last ∧ ClosingAt last closing rest

theorem element_sound_succ (hcontents : ContentSound fuel) : ElementSound (fuel + 1) := by
  intro cs item rest h
  unfold element at h
  split at h
  · obtain ⟨⟨⟨name, as⟩, ending, behind⟩, htag, h⟩ := bind_eq_ok_iff.1 h
    obtain ⟨mid, spaces, rfl, hname, hspaces, hall⟩ := startTag_eq_ok_iff.1 htag
    cases ending with
    | closed =>
      cases h
      exact .closed hname hall hspaces
    | opened =>
      obtain ⟨⟨items, closing, rest⟩, hcontent, h⟩ := bind_eq_ok_iff.1 h
      cases h
      obtain ⟨last, hitems, hclosing⟩ := hcontents hcontent
      exact .opened hname hall hspaces hitems hclosing
  · cases h

theorem content_sound_succ (helements : ElementSound fuel) (hcontents : ContentSound fuel) :
    ContentSound (fuel + 1) := by
  intro cs items closing rest h
  unfold content at h
  split at h
  · cases h
  · obtain ⟨⟨closing, rest⟩, hclosing, h⟩ := bind_eq_ok_iff.1 h
    cases h
    exact ⟨_, .nil _, closingTag_eq_ok_iff.1 hclosing⟩
  · split at h
    · rename_i hcomment
      obtain ⟨last, hitems, hclosing⟩ := hcontents h
      exact ⟨last, .comment (section?_eq_some_iff.1 hcomment) hitems, hclosing⟩
    · split at h
      · rename_i hliteral
        obtain ⟨⟨items, closing, rest⟩, hcontent, h⟩ := bind_eq_ok_iff.1 h
        cases h
        obtain ⟨last, hitems, hclosing⟩ := hcontents hcontent
        exact ⟨last, .literal (section?_eq_some_iff.1 hliteral) hitems, hclosing⟩
      · obtain ⟨⟨item, mid⟩, helement, h⟩ := bind_eq_ok_iff.1 h
        obtain ⟨⟨items, closing, rest⟩, hcontent, h⟩ := bind_eq_ok_iff.1 h
        cases h
        obtain ⟨last, hitems, hclosing⟩ := hcontents hcontent
        exact ⟨last, .element (helements helement) hitems, hclosing⟩
  -- the run of text is not empty, since its first character is none of the brackets above
  · rename_i c front _ hc
    rcases hspan : (c :: front).span (· != '<') with ⟨raw, mid⟩
    obtain ⟨hsplit, hraw, hmid⟩ := span_eq_iff.1 hspan
    rw [hspan] at h
    obtain ⟨⟨items, closing, rest⟩, hcontent, h⟩ := bind_eq_ok_iff.1 h
    cases h
    obtain ⟨last, hitems, hclosing⟩ := hcontents hcontent
    have hne : raw ≠ [] := by
      rintro rfl
      exact hc (by simpa using hmid c (by rw [← List.nil_append mid, ← hsplit]; rfl))
    rw [hsplit]
    refine ⟨last, .text hne (fun hmem => ?_) (fun d hd => ?_) hitems, hclosing⟩
    · exact absurd (hraw _ hmem) (by decide)
    · simpa using hmid d hd

/-- What is read is derived. The induction is on the fuel, for elements and content at once. -/
theorem reading_sound : ∀ fuel : Nat, ElementSound fuel ∧ ContentSound fuel
  | 0 => ⟨fun _ _ _ h => (nomatch h), fun _ _ _ _ h => (nomatch h)⟩
  | fuel + 1 =>
    have ⟨helements, hcontents⟩ := reading_sound fuel
    ⟨element_sound_succ hcontents, content_sound_succ helements hcontents⟩

end Soundness

/-! ### Completeness -/

section Completeness

variable {fuel : Nat}

/-- A derived element is read once the fuel is the number of characters. -/
def ElementComplete (fuel : Nat) : Prop :=
  ∀ ⦃cs item rest⦄, ElementAt cs item rest → cs.length ≤ fuel → element fuel cs = .ok (item, rest)

/-- Derived content is read once the fuel exceeds the number of characters: an element at its front
    is read with one less. -/
def ContentComplete (fuel : Nat) : Prop :=
  ∀ ⦃cs items last closing rest⦄, ContentAt cs items last → ClosingAt last closing rest →
    cs.length < fuel → content fuel cs = .ok (items, closing, rest)

theorem element_complete_succ (hcontents : ContentComplete fuel) : ElementComplete (fuel + 1) := by
  intro cs item rest h hfuel
  cases h with
  | @closed name mid spaces rest as hname hall hspaces =>
    have htag : startTag (name ++ mid) = .ok (⟨name, as⟩, .closed, rest) :=
      startTag_eq_ok_iff.2 ⟨mid, spaces, rfl, hname, hspaces, hall⟩
    rw [element_bracket, htag]
    rfl
  | @opened name mid spaces inner last rest as items closing hname hall hspaces hitems hclosing =>
    have htag : startTag (name ++ mid) = .ok (⟨name, as⟩, .opened, inner) :=
      startTag_eq_ok_iff.2 ⟨mid, spaces, rfl, hname, hspaces, hall⟩
    have hinner : inner.length < fuel := by
      have := hall.length_le
      simp only [List.length_append, List.length_cons] at this hfuel
      omega
    have hcontent := hcontents hitems hclosing hinner
    rw [element_bracket, htag]
    show (content fuel inner >>= _) = _
    rw [hcontent]
    rfl

theorem content_complete_succ (helements : ElementComplete fuel) (hcontents : ContentComplete fuel) :
    ContentComplete (fuel + 1) := by
  intro cs items last closing rest h hclosing hfuel
  cases h with
  | nil =>
    obtain ⟨tail, rfl⟩ : ∃ tail, cs = '<' :: '/' :: tail := by
      obtain ⟨hsplit, -⟩ := hclosing
      exact ⟨_, hsplit⟩
    rw [content_closing, closingTag_eq_ok_iff.2 hclosing]
    rfl
  | comment hsection hitems =>
    have := hsection.length_lt (by decide)
    rw [content_comment hsection, hcontents hitems hclosing (by omega)]
  | literal hsection hitems =>
    have := hsection.length_lt (by decide)
    rw [content_literal hsection, hcontents hitems hclosing (by omega)]
    rfl
  | element helement hitems =>
    have := helement.length_lt
    obtain ⟨c, tail, rfl, hc⟩ := helement.exists_front
    rw [content_element hc, helements helement (by omega)]
    show (content fuel _ >>= _) = _
    rw [hcontents hitems hclosing (by omega)]
    rfl
  | text hne hraw hmid hitems =>
    have := List.length_pos_iff.2 hne
    rw [List.length_append] at hfuel
    rw [content_text hne hraw hmid, hcontents hitems hclosing (by omega)]
    rfl

/-- What is derived is read. -/
theorem reading_complete : ∀ fuel : Nat, ElementComplete fuel ∧ ContentComplete fuel
  | 0 => by
    refine ⟨fun cs item rest h hfuel => ?_, fun _ _ _ _ _ _ _ hfuel => absurd hfuel (Nat.not_lt_zero _)⟩
    exact absurd h.length_lt (by omega)
  | fuel + 1 =>
    have ⟨helements, hcontents⟩ := reading_complete fuel
    ⟨element_complete_succ hcontents, content_complete_succ helements hcontents⟩

/-- With enough fuel an element is read exactly where the grammar has one. -/
theorem element_eq_ok_iff {cs rest : List Char} {item : Item} (hfuel : cs.length ≤ fuel) :
    element fuel cs = .ok (item, rest) ↔ ElementAt cs item rest :=
  ⟨fun h => (reading_sound fuel).1 h, fun h => (reading_complete fuel).1 h hfuel⟩

end Completeness

end HandlerScript.Markup
