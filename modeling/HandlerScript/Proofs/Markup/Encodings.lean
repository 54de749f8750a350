import HandlerScript.Proofs.Markup.References

/-! Texts written with references.

    A character can be written as itself unless it is an ampersand, by its name if it has one, and by its
    number in either system, with any zeros before it and the letters of hexadecimal digits in either case.
    Each of these is read as the character whatever follows it, since every ampersand that was written
    begins a reference and the first semicolon behind it is its own. So a text can be written in any
    mixture of these ways, and what was written to look like a reference is not read as one. -/

namespace HandlerScript.Markup

/-- The ways to write a character. -/
inductive Encodes (c : Char) : List Char → Prop
  | plain : c ≠ '&' → Encodes c [c]
  | named (name : List Char) : (name, c) ∈ namedCharacters → Encodes c ('&' :: (name ++ [';']))
  | decimal (zeros : Nat) :
      Encodes c ('&' :: '#' :: (List.replicate zeros '0' ++ Decimal.digits c.toNat ++ [';']))
  | hexadecimal (x : Char) (zeros : Nat) (ds : List Char) : x = 'x' ∨ x = 'X' →
      ds.map Char.toLower = List.replicate zeros '0' ++ Hexadecimal.digits c.toNat →
      Encodes c ('&' :: '#' :: x :: (ds ++ [';']))

/-- A text with each character written in one of its ways. -/
inductive EncodesText : List Char → List Char → Prop
  | nil : EncodesText [] []
  | cons {c : Char} {cs piece text : List Char} :
      Encodes c piece → EncodesText cs text → EncodesText (c :: cs) (piece ++ text)

section Encoded

variable {c : Char} {cs ds piece text : List Char} {zeros : Nat}

theorem numbers_decimal (zeros : Nat) (c : Char) :
    Numbers [] ('#' :: (List.replicate zeros '0' ++ Decimal.digits c.toNat)) c := by
  refine .decimal ?_ (List.forall_mem_append.2 ⟨fun d hd => ?_, Decimal.isDigit_of_mem_digits⟩) ?_
  · exact List.append_ne_nil_of_right_ne_nil _ (Decimal.digits_ne_nil _)
  · rw [List.eq_of_mem_replicate hd]
    rfl
  · show Decimal.ofDigits (List.replicate zeros '0' ++ Decimal.digits c.toNat) = c.toNat
    rw [Decimal.ofDigits_append, Decimal.ofDigits_zeros, Decimal.ofDigits_digits, Nat.zero_mul,
      Nat.zero_add]

theorem numbers_hexadecimal {x : Char} (hx : x = 'x' ∨ x = 'X')
    (h : ds.map Char.toLower = List.replicate zeros '0' ++ Hexadecimal.digits c.toNat) :
    Numbers [] ('#' :: x :: ds) c := by
  have hdigits : ∀ d ∈ ds.map Char.toLower, Hexadecimal.isDigit d = true := by
    rw [h]
    refine List.forall_mem_append.2 ⟨fun d hd => ?_, Hexadecimal.isDigit_of_mem_digits _⟩
    rw [List.eq_of_mem_replicate hd]
    rfl
  refine .hexadecimal hx ?_ (fun d hd => ?_) ?_
  · rintro rfl
    exact Hexadecimal.digits_ne_nil _ (List.append_eq_nil_iff.1 h.symm).2
  · rw [← Hexadecimal.isDigit_toLower]
    exact hdigits _ (List.mem_map_of_mem hd)
  · rw [← Hexadecimal.ofDigits_map_toLower, h, Hexadecimal.ofDigits_zeros_append,
      Hexadecimal.ofDigits_digits]

/-- A character is written as itself or as a reference to it. -/
theorem Encodes.cases_reference (h : Encodes c piece) :
    (c ≠ '&' ∧ piece = [c]) ∨ ∃ name, piece = '&' :: (name ++ [';']) ∧ Refers name c := by
  cases h with
  | plain hc => exact .inl ⟨hc, rfl⟩
  | named name hname => exact .inr ⟨_, rfl, .inl hname⟩
  | decimal zeros => exact .inr ⟨_, rfl, .inr (numbers_decimal zeros c)⟩
  | hexadecimal x zeros ds hx hdigits => exact .inr ⟨_, rfl, .inr (numbers_hexadecimal hx hdigits)⟩

/-- What was written for a character is read as it, whatever follows. -/
theorem Encodes.decode_append (h : Encodes c piece) (rest : List Char) :
    decode (piece ++ rest) = c :: decode rest := by
  rcases h.cases_reference with ⟨hc, rfl⟩ | ⟨name, rfl, hname⟩
  · exact decode_char_of_ne hc rest
  · rw [List.cons_append, List.append_assoc]
    exact decode_reference (.inl hname) rest

theorem EncodesText.decode_append (h : EncodesText cs text) (rest : List Char) :
    decode (text ++ rest) = cs ++ decode rest := by
  induction h with
  | nil => rfl
  | cons hpiece _ ih => rw [List.append_assoc, hpiece.decode_append, ih, List.cons_append]

end Encoded

/-- A text is read back however its characters were written, and what follows it is read as if it stood
    alone. -/
theorem decode_encoded {cs text : List Char} (h : EncodesText cs text) :
    decode text = cs ∧ ∀ rest, decode (text ++ rest) = cs ++ decode rest := by
  refine ⟨?_, h.decode_append⟩
  have hdecode := h.decode_append []
  rwa [List.append_nil, show decode [] = [] from rfl, List.append_nil] at hdecode

/-- A text that looks like a reference itself, with a semicolon and a number sign between references of
    all kinds, before a text that would make one with its last character. -/
theorem decode_encoded_lookalike :
    EncodesText ['&', 'l', 't', ';', '#', 'é', '<', '𝒳'] "&amp;lt;#&#X00e9;&#0060;&#x1D4b3;".toList ∧
      decode "&amp;lt;#&#X00e9;&#0060;&#x1D4b3;".toList = "&lt;#é<𝒳".toList ∧
      decode ("&amp;lt;#&#X00e9;&#0060;&#x1D4b3;".toList ++ "amp;".toList) = "&lt;#é<𝒳amp;".toList := by
  have hamp : Encodes '&' "&amp;".toList := .named "amp".toList (by decide)
  have haccent : Encodes 'é' "&#X00e9;".toList :=
    .hexadecimal 'X' 2 "00e9".toList (.inr rfl) (by decide +kernel)
  have hangle : Encodes '<' _ := .decimal 2
  have hscript : Encodes '𝒳' "&#x1D4b3;".toList :=
    .hexadecimal 'x' 0 "1D4b3".toList (.inl rfl) (by decide +kernel)
  have hplain : ∀ c ∈ ['l', 't', ';', '#'], Encodes c [c] := fun c hc => .plain (by
    rintro rfl
    exact absurd hc (by decide))
  have hpieces : EncodesText ['&', 'l', 't', ';', '#', 'é', '<', '𝒳'] _ :=
    .cons hamp <| .cons (hplain 'l' (by decide)) <| .cons (hplain 't' (by decide)) <|
      .cons (hplain ';' (by decide)) <| .cons (hplain '#' (by decide)) <|
      .cons haccent <| .cons hangle <| .cons hscript .nil
  have h : EncodesText _ "&amp;lt;#&#X00e9;&#0060;&#x1D4b3;".toList :=
    Eq.mp (congrArg (EncodesText _) (by decide +kernel)) hpieces
  obtain ⟨hdecode, happend⟩ := decode_encoded h
  exact ⟨h, hdecode.trans (by decide), (happend _).trans (by decide)⟩

end HandlerScript.Markup
