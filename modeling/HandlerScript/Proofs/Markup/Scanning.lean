import HandlerScript.Proofs.Markup.Grammar
import HandlerScript.Proofs.Text.Phrases
import HandlerScript.Proofs.Text.Runs
import Mathlib.Data.List.TakeDrop
import Mathlib.Data.List.TakeWhile

/-! Reading the pieces of markup.

    Each small reader takes a piece exactly where the grammar has one. A reader that takes the longest
    run of some characters agrees with a division of the text once what is left begins with no such
    character, and in the grammar it never does: behind a name comes a blank, an equals sign or a
    bracket, and behind blanks comes none. -/

namespace HandlerScript.Markup

open Text (Stops stops_nil stops_cons span_eq_iff)

section Blanks

variable {cs rest s : List Char}

theorem spaces_nil : Spaces [] := fun _ h => nomatch h

theorem skipSpaces_append (hs : Spaces s) : skipSpaces (s ++ cs) = skipSpaces cs :=
  List.dropWhile_append_of_pos hs

theorem skipSpaces_of_stops (h : Stops isSpace cs) : skipSpaces cs = cs := by
  cases cs with
  | nil => rfl
  | cons c cs => simp [skipSpaces, h c rfl]

theorem skipSpaces_eq (hs : Spaces s) (hrest : Stops isSpace rest) : skipSpaces (s ++ rest) = rest := by
  rw [skipSpaces_append hs, skipSpaces_of_stops hrest]

/-- What is skipped is blank. -/
theorem exists_spaces (cs : List Char) :
    ∃ s, Spaces s ∧ cs = s ++ skipSpaces cs ∧ Stops isSpace (skipSpaces cs) := by
  obtain ⟨hcs, hspaces, hstops⟩ := span_eq_iff.1 (List.span_eq_takeWhile_dropWhile isSpace cs)
  exact ⟨cs.takeWhile isSpace, hspaces, hcs, hstops⟩

end Blanks

/-! ### Names -/

section Names

variable {cs name rest : List Char}

theorem name?_eq_some_iff :
    name? cs = some (name, rest) ↔ IsName name ∧ cs = name ++ rest ∧ Stops isNameChar rest := by
  cases cs with
  | nil =>
    constructor
    · intro h
      cases h
    · rintro ⟨hname, heq, -⟩
      obtain ⟨rfl, -⟩ := List.append_eq_nil_iff.1 heq.symm
      exact hname.elim
  | cons c cs =>
    rw [name?]
    split
    · rename_i hc
      rcases hspan : cs.span isNameChar with ⟨more, left⟩
      obtain ⟨hcs, hmore, hleft⟩ := span_eq_iff.1 hspan
      simp only [Option.some.injEq, Prod.mk.injEq]
      constructor
      · rintro ⟨rfl, rfl⟩
        exact ⟨⟨hc, hmore⟩, by rw [hcs, List.cons_append], hleft⟩
      · rintro ⟨hname, heq, hrest⟩
        cases name with
        | nil => exact hname.elim
        | cons d ds =>
          obtain ⟨rfl, htail⟩ := List.cons.inj heq
          have := (span_eq_iff.2 ⟨htail, hname.2, hrest⟩).symm.trans hspan
          simp only [Prod.mk.injEq] at this
          exact ⟨by rw [this.1], this.2.symm⟩
    · rename_i hc
      constructor
      · intro h
        cases h
      · rintro ⟨hname, heq, -⟩
        cases name with
        | nil => exact hname.elim
        | cons d ds =>
          obtain ⟨rfl, -⟩ := List.cons.inj heq
          exact absurd hname.1 hc

theorem name?_append (hname : IsName name) (hrest : Stops isNameChar rest) :
    name? (name ++ rest) = some (name, rest) :=
  name?_eq_some_iff.2 ⟨hname, rfl, hrest⟩

theorem isSpace_cases {c : Char} (h : isSpace c = true) :
    c = ' ' ∨ c = '\t' ∨ c = '\r' ∨ c = '\n' := by
  simpa [isSpace, or_assoc] using h

/-- A blank is no part of a name. -/
theorem not_isNameChar_of_isSpace {c : Char} (h : isSpace c = true) : isNameChar c = false := by
  rcases isSpace_cases h with rfl | rfl | rfl | rfl <;> decide

theorem not_isSpace_of_isNameStart {c : Char} (h : isNameStart c = true) : isSpace c = false := by
  cases hs : isSpace c with
  | false => rfl
  | true => rcases isSpace_cases hs with rfl | rfl | rfl | rfl <;> exact absurd h (by decide)

/-- A name begins with no blank. -/
theorem IsName.stops_isSpace (h : IsName name) : Stops isSpace (name ++ rest) := by
  cases name with
  | nil => exact h.elim
  | cons c cs => exact stops_cons (not_isSpace_of_isNameStart h.1)

/-- Blanks before a character that is no part of a name end the name. -/
theorem stops_isNameChar_spaces {s : List Char} (hs : Spaces s) (h : Stops isNameChar rest) :
    Stops isNameChar (s ++ rest) := by
  cases s with
  | nil => exact h
  | cons c s => exact stops_cons (not_isNameChar_of_isSpace (hs c List.mem_cons_self))

end Names

/-! ### Sections -/

section Sections

theorem section?_eq_some_iff {opening closing : String} {cs body rest : List Char} : section? opening
    closing cs = some (body, rest) ↔ SectionAt opening closing cs body rest := by
  rw [section?, Option.bind_eq_some_iff]
  constructor
  · rintro ⟨mid, hmid, hcut⟩
    obtain ⟨hsplit, hfirst⟩ := Text.cut?_eq_some_iff.1 hcut
    rw [hsplit] at hmid hfirst
    exact ⟨Text.after?_eq_some_iff.1 hmid, hfirst⟩
  · rintro ⟨hsplit, hfirst⟩
    exact ⟨_, Text.after?_eq_some_iff.2 hsplit, Text.cut?_eq_some_iff.2 ⟨rfl, hfirst⟩⟩

/-- No section begins where an element does. -/
theorem not_isPrefix_bracket {opening : String} {mark c : Char} {marks cs : List Char}
    (hopening : opening.toList = '<' :: mark :: marks) (hmark : isNameStart mark = false)
    (hc : isNameStart c = true) : ¬ opening.toList <+: '<' :: c :: cs := by
  rintro ⟨rest, hrest⟩
  rw [hopening] at hrest
  obtain rfl : mark = c := (List.cons.inj (List.cons.inj hrest).2).1
  exact absurd hc (by rw [hmark]; decide)

/-- A section begins with its opening mark. -/
theorem section?_eq_none {opening closing : String} {cs : List Char}
    (h : ¬ opening.toList <+: cs) : section? opening closing cs = none := by
  rw [section?, Text.after?_eq_none_iff.2 h, Option.bind_none]

end Sections

end HandlerScript.Markup
