import HandlerScript.Markup.Reference
import HandlerScript.Proofs.Markup.Pieces
import HandlerScript.Proofs.Number.Hexadecimal
import HandlerScript.Proofs.Text.Runs

/-! Decoding references.

    A reference names one of five characters, or gives the number of a character in decimal or in
    hexadecimal digits. Decoding takes the first semicolon behind an ampersand for the end of a reference;
    where there is no reference, it goes on behind the ampersand, so that one which begins later is not
    missed. So it replaces each reference that occurs in a text and keeps all else. But a number is read
    as an integer is, and an integer may have a plus sign: `&#+65;` is decoded like `&#65;`, although no
    reference is written so. This is the only thing that is decoded and is no reference. -/

namespace HandlerScript.Markup

open Text (span_eq_iff stops_cons)

/-! ### Names -/

/-- The characters that have names. -/
def namedCharacters : List (List Char × Char) :=
  [("amp".toList, '&'), ("lt".toList, '<'), ("gt".toList, '>'), ("quot".toList, '"'),
    ("apos".toList, '\'')]

/-- The number of a character, in decimal or hexadecimal digits with a sign before them. -/
inductive Numbers (sign : List Char) : List Char → Char → Prop
  | decimal {ds : List Char} {c : Char} : ds ≠ [] → (∀ d ∈ ds, Decimal.isDigit d = true) →
      Decimal.ofDigits ds = c.toNat → Numbers sign ('#' :: (sign ++ ds)) c
  | hexadecimal {x : Char} {ds : List Char} {c : Char} : x = 'x' ∨ x = 'X' → ds ≠ [] →
      (∀ d ∈ ds, Hexadecimal.isDigit d = true) → Hexadecimal.ofDigits ds = c.toNat →
      Numbers sign ('#' :: x :: (sign ++ ds)) c

/-- What a reference has between its marks: the name of a character, or its number without a sign. -/
def Refers (name : List Char) (c : Char) : Prop :=
  (name, c) ∈ namedCharacters ∨ Numbers [] name c

/-- What is decoded if it stands between an ampersand and a semicolon. -/
def IsDecoded (name : List Char) (c : Char) : Prop :=
  Refers name c ∨ Numbers ['+'] name c

section Names

variable {name cs : List Char} {c : Char} {n : Nat}

theorem charOf?_eq_some_iff : charOf? n = some c ↔ n = c.toNat := by
  rw [charOf?]
  constructor
  · intro h
    split at h
    · rename_i hvalid
      cases h
      rw [Char.ofNat, dif_pos hvalid]
      rfl
    · cases h
  · rintro rfl
    rw [if_pos (show c.toNat.isValidChar from c.valid), Char.ofNat_toNat]

theorem unsigned?_eq_some_iff {read? : List Char → Option Nat} (hplus : ∀ ds, read? ('+' :: ds) = none) :
    unsigned? read? cs = some n ↔ read? cs = some n ∨ ∃ ds, cs = '+' :: ds ∧ read? ds = some n := by
  fun_cases unsigned? read? cs with
  | case1 ds => simp [hplus]
  | case2 _ hne =>
    refine ⟨.inl, fun h => h.resolve_right ?_⟩
    rintro ⟨ds, rfl, -⟩
    exact hne ds rfl

/-- No numeral has a plus sign for its first digit. -/
theorem Decimal.nat?_plus (ds : List Char) : Decimal.nat? ('+' :: ds) = none := rfl

theorem Hexadecimal.nat?_plus (ds : List Char) : Hexadecimal.nat? ('+' :: ds) = none := by
  rw [Option.eq_none_iff_forall_ne_some]
  intro n h
  exact absurd ((Hexadecimal.nat?_eq_some_iff.1 h).2.1 '+' List.mem_cons_self) (by decide)

theorem decimal_iff : (unsigned? Decimal.nat? cs).bind charOf? = some c ↔ ∃ sign ∈ [[], ['+']], ∃ ds,
    cs = sign ++ ds ∧ ds ≠ [] ∧ (∀ d ∈ ds, Decimal.isDigit d = true) ∧ Decimal.ofDigits ds = c.toNat := by
  simp [Option.bind_eq_some_iff, charOf?_eq_some_iff, unsigned?_eq_some_iff Decimal.nat?_plus,
    Decimal.nat?_eq_some_iff]

theorem hexadecimal_iff : (unsigned? Hexadecimal.nat? cs).bind charOf? = some c ↔
    ∃ sign ∈ [[], ['+']], ∃ ds, cs = sign ++ ds ∧ ds ≠ [] ∧
      (∀ d ∈ ds, Hexadecimal.isDigit d = true) ∧ Hexadecimal.ofDigits ds = c.toNat := by
  simp [Option.bind_eq_some_iff, charOf?_eq_some_iff, unsigned?_eq_some_iff Hexadecimal.nat?_plus,
    Hexadecimal.nat?_eq_some_iff]

theorem ofList_ne {s : String} {d : Char} (h : s.toList.head? ≠ some d) :
    String.ofList (d :: cs) ≠ s := by
  rintro rfl
  exact h (by rw [String.toList_ofList]; rfl)

theorem referent?_hexadecimal {x : Char} (hx : x = 'x' ∨ x = 'X') :
    referent? ('#' :: x :: cs) = (unsigned? Hexadecimal.nat? cs).bind charOf? := by
  rcases hx with rfl | rfl
  all_goals
    rw [referent?]
    split
    all_goals first
      | exact absurd ‹_› (ofList_ne (by decide))
      | rfl

theorem referent?_decimal (hx : ∀ ds, cs ≠ 'x' :: ds) (hX : ∀ ds, cs ≠ 'X' :: ds) :
    referent? ('#' :: cs) = (unsigned? Decimal.nat? cs).bind charOf? := by
  rw [referent?]
  · split
    all_goals first
      | exact absurd ‹_› (ofList_ne (by decide))
      | rfl
  · exact hx
  · exact hX

theorem isDecoded_of_mem {sign : List Char} (hsign : sign ∈ [[], ['+']]) (h : Numbers sign name c) :
    IsDecoded name c := by
  rcases List.mem_pair.1 hsign with rfl | rfl
  · exact .inl (.inr h)
  · exact .inr h

theorem isDecoded_of_referent? (h : referent? name = some c) : IsDecoded name c := by
  have hword : ∀ {s : String} {d : Char}, String.ofList name = s → (s.toList, d) ∈ namedCharacters →
      some d = some c → IsDecoded name c := by
    rintro _ d rfl hmem ⟨⟩
    rw [String.toList_ofList] at hmem
    exact .inl (.inl hmem)
  have hnumber : ∀ {x : Char} {code : List Char}, x = 'x' ∨ x = 'X' → name = '#' :: x :: code →
      (unsigned? Hexadecimal.nat? code).bind charOf? = some c → IsDecoded name c := by
    rintro x code hx rfl hcode
    obtain ⟨sign, hsign, ds, rfl, hne, hdigits, hvalue⟩ := hexadecimal_iff.1 hcode
    exact isDecoded_of_mem hsign (.hexadecimal hx hne hdigits hvalue)
  revert h
  fun_cases referent? name with
  | case1 _ heq => exact hword heq (by decide)
  | case2 _ heq => exact hword heq (by decide)
  | case3 _ heq => exact hword heq (by decide)
  | case4 _ heq => exact hword heq (by decide)
  | case5 _ heq => exact hword heq (by decide)
  | case6 code => exact hnumber (.inl rfl) rfl
  | case7 code => exact hnumber (.inr rfl) rfl
  | case8 code =>
    intro h
    obtain ⟨sign, hsign, ds, rfl, hne, hdigits, hvalue⟩ := decimal_iff.1 h
    exact isDecoded_of_mem hsign (.decimal hne hdigits hvalue)
  | case9 => exact fun h => nomatch h

/-- The names and numbers that are decoded. -/
theorem referent?_eq_some_iff : referent? name = some c ↔ IsDecoded name c := by
  refine ⟨isDecoded_of_referent?, ?_⟩
  have hnumber : ∀ {sign : List Char}, sign ∈ [[], ['+']] → Numbers sign name c →
      referent? name = some c := by
    rintro sign hsign (⟨hne, hdigits, hvalue⟩ | ⟨hx, hne, hdigits, hvalue⟩)
    · have hmark : ∀ {x : Char} {rest : List Char}, Decimal.isDigit x = false → x ≠ '+' →
          sign ++ _ ≠ x :: rest := fun hx hplus heq => by
        rcases List.mem_pair.1 hsign with rfl | rfl
        · exact absurd (hdigits _ (heq ▸ List.mem_cons_self)) (by rw [hx]; decide)
        · exact hplus (List.cons.inj heq).1.symm
      rw [referent?_decimal (fun _ => hmark (by decide) (by decide)) fun _ => hmark (by decide) (by decide)]
      exact decimal_iff.2 ⟨sign, hsign, _, rfl, hne, hdigits, hvalue⟩
    · rw [referent?_hexadecimal hx]
      exact hexadecimal_iff.2 ⟨sign, hsign, _, rfl, hne, hdigits, hvalue⟩
  have hword : ∀ e ∈ namedCharacters, referent? e.1 = some e.2 := by decide
  rintro ((hmem | h) | h)
  · exact hword _ hmem
  · exact hnumber (by decide) h
  · exact hnumber (by decide) h

/-- A number is made of its mark, its sign and digits. -/
theorem Numbers.not_mem {sign : List Char} {m : Char} (h : Numbers sign name c) (hsign : m ∉ sign)
    (hmark : m ∉ ['#', 'x', 'X']) (hdecimal : Decimal.isDigit m = false)
    (hhexadecimal : Hexadecimal.isDigit m = false) : m ∉ name := by
  have hdigit : ∀ {p : Char → Bool} {ds : List Char}, (∀ d ∈ ds, p d = true) → p m = false → m ∉ ds :=
    fun hdigits hm hmem => absurd (hdigits m hmem) (by rw [hm]; decide)
  simp only [List.mem_cons, List.not_mem_nil, or_false, not_or] at hmark
  cases h with
  | decimal _ hdigits _ => simp [hmark, hsign, hdigit hdigits hdecimal]
  | hexadecimal hx _ hdigits _ =>
    rcases hx with rfl | rfl <;> simp [hmark, hsign, hdigit hdigits hhexadecimal]

theorem Refers.not_mem_plus (h : Refers name c) : '+' ∉ name := by
  have hword : ∀ e ∈ namedCharacters, '+' ∉ e.1 := by decide
  rcases h with hmem | h
  · exact hword _ hmem
  · exact h.not_mem (by decide) (by decide) (by decide) (by decide)

theorem Numbers.mem_plus (h : Numbers ['+'] name c) : '+' ∈ name := by
  cases h <;> simp

theorem IsDecoded.plain (h : IsDecoded name c) : '&' ∉ name ∧ ';' ∉ name := by
  have hword : ∀ e ∈ namedCharacters, '&' ∉ e.1 ∧ ';' ∉ e.1 := by decide
  rcases h with (hmem | h) | h
  · exact hword _ hmem
  · exact ⟨h.not_mem (by decide) (by decide) (by decide) (by decide),
      h.not_mem (by decide) (by decide) (by decide) (by decide)⟩
  · exact ⟨h.not_mem (by decide) (by decide) (by decide) (by decide),
      h.not_mem (by decide) (by decide) (by decide) (by decide)⟩

theorem naming_isDecoded : Naming IsDecoded where
  unique h h' := Option.some.inj
    ((referent?_eq_some_iff.2 h).symm.trans (referent?_eq_some_iff.2 h'))
  plain := IsDecoded.plain

theorem naming_refers : Naming Refers where
  unique h h' := naming_isDecoded.unique (.inl h) (.inl h')
  plain h := naming_isDecoded.plain (.inl h)

end Names

/-! ### Decoding -/

section Decoding

variable {name cs rest : List Char} {c : Char} {ps : List Piece}

theorem reference?_append (hname : ';' ∉ name) (hreferent : referent? name = some c) :
    reference? (name ++ ';' :: rest) = some (c, name.length + 1) := by
  have hspan : (name ++ ';' :: rest).span (· != ';') = (name, ';' :: rest) := by
    refine span_eq_iff.2 ⟨rfl, fun d hd => ?_, stops_cons (by decide)⟩
    rw [bne_iff_ne]
    rintro rfl
    exact hname hd
  rw [reference?, hspan]
  dsimp only
  rw [hreferent]
  rfl

/-- What is found behind an ampersand is a reference. -/
theorem opens_of_reference? {k : Nat} (h : reference? cs = some (c, k)) : Opens IsDecoded ('&' :: cs) := by
  rcases hspan : cs.span (· != ';') with ⟨name, rest⟩
  obtain ⟨hcs, -, hrest⟩ := span_eq_iff.1 hspan
  rw [reference?, hspan] at h
  dsimp only at h
  cases rest with
  | nil => cases h
  | cons d rest =>
    obtain rfl : d = ';' := by simpa using hrest d rfl
    obtain ⟨c', hc', -⟩ := Option.map_eq_some_iff.1 h
    exact ⟨name, c', rest, referent?_eq_some_iff.1 hc', by rw [hcs]⟩

theorem decodeFrom_length (front cs : List Char) :
    decodeFrom front.length (front ++ cs) = decodeFrom 0 cs := by
  induction front with
  | nil => rfl
  | cons _ front ih => exact ih

theorem decode_reference (h : IsDecoded name c) (rest : List Char) :
    decode ('&' :: (name ++ ';' :: rest)) = c :: decode rest := by
  have hskip := decodeFrom_length (name ++ [';']) rest
  rw [List.length_append, List.append_assoc] at hskip
  rw [decode, decodeFrom, if_pos rfl, reference?_append h.plain.2
    (referent?_eq_some_iff.2 h)]
  exact congrArg (c :: ·) hskip

theorem decode_char (h : ¬ Opens IsDecoded (c :: cs)) : decode (c :: cs) = c :: decode cs := by
  rw [decode, decodeFrom]
  split
  · rename_i hc
    subst hc
    split
    · rename_i r k hreference
      exact absurd (opens_of_reference? hreference) h
    · rfl
  · rfl

theorem decode_char_of_ne (h : c ≠ '&') (cs : List Char) : decode (c :: cs) = c :: decode cs :=
  decode_char fun ⟨_, _, _, _, heq⟩ => h (List.cons.inj heq).1

theorem decode_of_not_mem (h : '&' ∉ cs) : decode cs = cs := by
  induction cs with
  | nil => rfl
  | cons c cs ih =>
    obtain ⟨hc, hcs⟩ := not_or.1 fun hmem => h (List.mem_cons.2 hmem)
    rw [decode_char_of_ne (Ne.symm hc), ih hcs]

/-- A text is decoded piece by piece. -/
theorem Divides.decode_eq (h : Divides IsDecoded cs ps) : decode cs = ps.map Piece.decoded := by
  induction ps generalizing cs with
  | nil =>
    obtain rfl : [] = cs := h.written
    rfl
  | cons p ps ih =>
    obtain ⟨rest, rfl, -, -⟩ := Splits.cons_iff.1 h.toSplits
    cases p with
    | char c =>
      obtain ⟨hopens, hrest⟩ := divides_char_iff.1 h
      exact (decode_char hopens).trans (congrArg (c :: ·) (ih hrest))
    | reference name c =>
      have hdivides : Divides IsDecoded ('&' :: (name ++ ';' :: rest)) (.reference name c :: ps) := by
        simpa [Piece.written] using h
      obtain ⟨hc, hrest⟩ := (divides_reference_iff naming_isDecoded).1 hdivides
      rw [Piece.written, List.cons_append, List.append_assoc, List.singleton_append,
        decode_reference hc, ih hrest]
      rfl

theorem Numbers.isDecoded_only (h : Numbers ['+'] name c) : IsDecoded name c ∧ ¬ Refers name c :=
  ⟨.inr h, fun hrefers => hrefers.not_mem_plus h.mem_plus⟩

/-- A text is decoded to its pieces, where the references are replaced and the other characters kept,
    exactly if no number with a plus sign stands in it like a reference. -/
theorem Divides.decode_eq_iff (h : Divides Refers cs ps) : decode cs = ps.map Piece.decoded ↔
    ∀ name c, Numbers ['+'] name c → ¬ '&' :: (name ++ [';']) <:+: cs := by
  obtain ⟨qs, hqs⟩ := exists_divides naming_isDecoded cs
  rw [hqs.decode_eq, h.decoded_eq_iff naming_isDecoded (fun _ _ => .inl) hqs]
  refine forall₂_congr fun name c => ⟨fun hnone hplus => ?_, fun hnone hname hnot => ?_⟩
  · exact hnone hplus.isDecoded_only.1 hplus.isDecoded_only.2
  · exact hnone (hname.resolve_left hnot)

end Decoding

/-! ### Decoded texts -/

/-- A text divides in one way into references and characters, and in one way if numbers with a plus sign
    count as references. It is decoded by the second: each of these is replaced by its character, and
    every other character is kept. The first gives the same exactly if no number in the text has a plus
    sign. -/
theorem decode_replaces_references (cs : List Char) :
    (∃! ps, Divides Refers cs ps) ∧ (∃! ps, Divides IsDecoded cs ps) ∧
    (∀ ps, Divides IsDecoded cs ps → decode cs = ps.map Piece.decoded) ∧
    ∀ ps, Divides Refers cs ps → (decode cs = ps.map Piece.decoded ↔
      ∀ name c, Numbers ['+'] name c → ¬ '&' :: (name ++ [';']) <:+: cs) :=
  ⟨existsUnique_divides naming_refers cs, existsUnique_divides naming_isDecoded cs,
    fun _ h => h.decode_eq, fun _ h => h.decode_eq_iff⟩

/-- References are found behind ampersands that are none, one behind the other, and what one of them is
    replaced by is not read again. -/
theorem decode_replaces_references_stray : ∃ ps, Divides Refers "R&D&#x4&&amp;lt;&#65;&nbsp;".toList ps ∧
    ps.map Piece.decoded = "R&D&#x4&&lt;A&nbsp;".toList := by
  obtain ⟨⟨ps, h, -⟩, -, -, hdecode⟩ := decode_replaces_references "R&D&#x4&&amp;lt;&#65;&nbsp;".toList
  refine ⟨ps, h, ((hdecode ps h).2 fun name c hname hoccurs => ?_).symm.trans (by decide)⟩
  exact absurd (hoccurs.subset (List.mem_cons_of_mem _ (List.mem_append_left _ hname.mem_plus)))
    (by decide)

/-- Not only references are decoded: a number with a plus sign is, too. -/
theorem decode_not_only_references :
    ¬ ∀ cs ps, Divides Refers cs ps → decode cs = ps.map Piece.decoded := by
  intro h
  obtain ⟨ps, hps⟩ := exists_divides naming_refers "&#+65;".toList
  have hplus : Numbers ['+'] "#+65".toList 'A' :=
    .decimal (List.cons_ne_nil '6' ['5']) (List.all_eq_true.1 rfl) rfl
  exact hps.decode_eq_iff.1 (h _ ps hps) _ _ hplus (List.infix_refl _)

end HandlerScript.Markup
