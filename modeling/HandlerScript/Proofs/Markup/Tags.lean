import HandlerScript.Proofs.Markup.Scanning

/-! Reading tags.

    A tag is read attribute by attribute, and an attribute is looked for wherever blanks stand. The
    blanks before the end of a tag are looked at too, and are given back: no attribute begins there,
    since a slash and a bracket begin no name. So reading takes all the attributes that the grammar
    has, and leaves the same text behind them. -/

namespace HandlerScript.Markup

open Text (Stops stops_cons)

/-! ### Attributes -/

section Attributes

variable {cs raw rest : List Char} {a : Attribute} {as : List Attribute}

theorem quoted?_eq_some_iff : quoted? cs = some (raw, rest) ↔
    ∃ quote, (quote = '"' ∨ quote = '\'') ∧ cs = quote :: (raw ++ quote :: rest) ∧ quote ∉ raw := by
  constructor
  · intro h
    unfold quoted? at h
    split at h
    · obtain ⟨rfl, hraw⟩ := Text.cut?_char_eq_some_iff.1 h
      exact ⟨'"', .inl rfl, rfl, hraw⟩
    · obtain ⟨rfl, hraw⟩ := Text.cut?_char_eq_some_iff.1 h
      exact ⟨'\'', .inr rfl, rfl, hraw⟩
    · cases h
  · rintro ⟨quote, rfl | rfl, rfl, hraw⟩
    · exact Text.cut?_char_eq_some_iff.2 ⟨rfl, hraw⟩
    · exact Text.cut?_char_eq_some_iff.2 ⟨rfl, hraw⟩

theorem assigned?_eq_some_iff : assigned? cs = some (raw, rest) ↔
    ∃ left right quote, cs = left ++ '=' :: (right ++ quote :: (raw ++ quote :: rest)) ∧
      Spaces left ∧ Spaces right ∧ (quote = '"' ∨ quote = '\'') ∧ quote ∉ raw := by
  constructor
  · intro h
    rw [assigned?] at h
    split at h
    · rename_i behind hskip
      obtain ⟨left, hleft, hcs, -⟩ := exists_spaces cs
      obtain ⟨right, hright, hbehind, -⟩ := exists_spaces behind
      obtain ⟨quote, hquote, hquoted, hraw⟩ := quoted?_eq_some_iff.1 h
      rw [hquoted] at hbehind
      rw [hskip, hbehind] at hcs
      exact ⟨left, right, quote, hcs, hleft, hright, hquote, hraw⟩
    · cases h
  · rintro ⟨left, right, quote, rfl, hleft, hright, hquote, hraw⟩
    have hstop : Stops isSpace (quote :: (raw ++ quote :: rest)) := by
      rcases hquote with rfl | rfl <;> exact stops_cons (by decide)
    have heq : Stops isSpace ('=' :: (right ++ quote :: (raw ++ quote :: rest))) :=
      stops_cons (by decide)
    rw [assigned?, skipSpaces_eq hleft heq]
    show quoted? (skipSpaces (right ++ quote :: (raw ++ quote :: rest))) = some (raw, rest)
    rw [skipSpaces_eq hright hstop]
    exact quoted?_eq_some_iff.2 ⟨quote, hquote, rfl, hraw⟩

/-- An attribute is read exactly where the grammar has one. -/
theorem attributeAt_eq_ok_iff : attributeAt cs = .ok (a, rest) ↔ AttributeAt cs a rest := by
  obtain ⟨front, hfront, hcs, -⟩ := exists_spaces cs
  constructor
  · intro h
    simp only [attributeAt] at h
    split at h
    · cases h
    · rename_i hlen
      split at h
      · cases h
      · rename_i name behind hname
        split at h
        · cases h
        · rename_i raw rest' hassigned
          cases h
          obtain ⟨hisName, hskip, -⟩ := name?_eq_some_iff.1 hname
          obtain ⟨left, right, quote, rfl, hleft, hright, hquote, hraw⟩ :=
            assigned?_eq_some_iff.1 hassigned
          refine .intro (hskip ▸ hcs) ?_ hfront hisName hleft hright hquote hraw
          rintro rfl
          exact hlen (congrArg List.length hcs.symm)
  · rintro @⟨front', name, left, right, raw, rest, quote, hsplit, hne, hfront', hisName, hleft,
      hright, hquote, hraw⟩
    have hskip : skipSpaces cs = name ++ (left ++ '=' :: (right ++ quote :: (raw ++ quote :: rest))) :=
      hsplit ▸ skipSpaces_eq hfront' hisName.stops_isSpace
    have heq : Stops isNameChar ('=' :: (right ++ quote :: (raw ++ quote :: rest))) :=
      stops_cons (by decide)
    have hassigned : assigned? (left ++ '=' :: (right ++ quote :: (raw ++ quote :: rest))) =
        some (raw, rest) :=
      assigned?_eq_some_iff.2 ⟨left, right, quote, rfl, hleft, hright, hquote, hraw⟩
    have hlen : (skipSpaces cs).length ≠ cs.length := by
      have := List.length_pos_iff.2 hne
      rw [hskip, hsplit]
      simp only [List.length_append]
      omega
    simp only [attributeAt]
    rw [if_neg hlen, hskip, name?_append hisName (stops_isNameChar_spaces hleft heq)]
    dsimp only
    rw [hassigned]

/-- Before a text that begins with no name there is no attribute. -/
theorem not_attributeAt (h : Stops isNameStart (skipSpaces cs)) : ¬ AttributeAt cs a rest := by
  rintro @⟨front, name, left, right, raw, rest, quote, hsplit, -, hfront, hisName, -⟩
  rw [hsplit, skipSpaces_eq hfront hisName.stops_isSpace] at h
  cases name with
  | nil => exact hisName.elim
  | cons c cs => exact absurd hisName.1 (by rw [h c rfl]; decide)

theorem AttributeAt.length_lt (h : AttributeAt cs a rest) : rest.length < cs.length := by
  obtain ⟨rfl, -⟩ := h
  simp only [List.length_append, List.length_cons]
  omega

theorem AttributesAt.length_le (h : AttributesAt cs as rest) : rest.length ≤ cs.length := by
  induction h with
  | nil cs => exact le_rfl
  | cons ha _ ih => exact ih.trans ha.length_lt.le

theorem attributesAt_sound : ∀ {fuel : Nat} {cs rest : List Char} {as : List Attribute} {stuck : Stuck},
    attributesAt fuel cs = (as, stuck, rest) → AttributesAt cs as rest
  | 0, cs, _, _, _, h => by
    cases h
    exact .nil cs
  | fuel + 1, cs, _, _, _, h => by
    rw [attributesAt] at h
    split at h
    · cases h
      exact .nil cs
    · rename_i a mid ha
      cases h
      exact .cons (attributeAt_eq_ok_iff.1 ha) (attributesAt_sound rfl)

/-- All attributes are read if none begins behind them. -/
theorem attributesAt_complete (h : AttributesAt cs as rest)
    (hrest : Stops isNameStart (skipSpaces rest)) :
    ∀ {fuel : Nat}, cs.length ≤ fuel → ∃ stuck, attributesAt fuel cs = (as, stuck, rest) := by
  induction h with
  | nil cs =>
    intro fuel _
    cases fuel with
    | zero => exact ⟨_, rfl⟩
    | succ fuel =>
      rw [attributesAt]
      split
      · exact ⟨_, rfl⟩
      · rename_i ha
        exact absurd (attributeAt_eq_ok_iff.1 ha) (not_attributeAt hrest)
  | cons ha _ ih =>
    intro fuel hfuel
    have hlt := ha.length_lt
    cases fuel with
    | zero => omega
    | succ fuel =>
      obtain ⟨stuck, hmore⟩ := ih hrest (Nat.le_of_lt_succ (hlt.trans_le hfuel))
      rw [attributesAt, attributeAt_eq_ok_iff.2 ha]
      dsimp only
      rw [hmore]
      exact ⟨stuck, rfl⟩

end Attributes

/-! ### Start tags and closing tags -/

/-- How a start tag ends, as written. -/
def TagEnd.mark : TagEnd → List Char
  | .opened => ['>']
  | .closed => ['/', '>']

section Tags

variable {cs name mid rest : List Char} {as : List Attribute} {ending : TagEnd} {closing : ClosingTag}

theorem TagEnd.stops_mark {p : Char → Bool} (hslash : p '/' = false) (hbracket : p '>' = false) :
    Stops p (ending.mark ++ rest) := by
  cases ending with
  | opened => exact stops_cons hbracket
  | closed => exact stops_cons hslash

/-- No name goes on where attributes and the end of a tag follow. -/
theorem AttributesAt.stops_isNameChar (h : AttributesAt mid as rest) (hrest : Stops isNameChar rest) :
    Stops isNameChar mid := by
  cases h with
  | nil => exact hrest
  | cons ha _ =>
    obtain ⟨hsplit, hne, hspaces, -⟩ := ha
    obtain ⟨c, front, rfl⟩ := List.exists_cons_of_ne_nil hne
    rw [hsplit]
    exact stops_cons (not_isNameChar_of_isSpace (hspaces c List.mem_cons_self))

theorem startTag_eq_ok_iff : startTag cs = .ok (⟨name, as⟩, ending, rest) ↔
    ∃ mid spaces, cs = name ++ mid ∧ IsName name ∧ Spaces spaces ∧
      AttributesAt mid as (spaces ++ (ending.mark ++ rest)) := by
  constructor
  · intro h
    rw [startTag] at h
    split at h
    · cases h
    · rename_i name' mid hname
      obtain ⟨hisName, hcs, -⟩ := name?_eq_some_iff.1 hname
      rcases hattributes : attributesAt mid.length mid with ⟨as', stuck, behind⟩
      have hall := attributesAt_sound hattributes
      obtain ⟨spaces, hspaces, hbehind, -⟩ := exists_spaces behind
      rw [hattributes] at h
      dsimp only at h
      split at h
      · rename_i hskip
        cases h
        rw [hbehind, hskip] at hall
        exact ⟨mid, spaces, hcs, hisName, hspaces, hall⟩
      · rename_i hskip
        cases h
        rw [hbehind, hskip] at hall
        exact ⟨mid, spaces, hcs, hisName, hspaces, hall⟩
      · cases h
  · rintro ⟨mid, spaces, rfl, hisName, hspaces, hall⟩
    have hskip : skipSpaces (spaces ++ (ending.mark ++ rest)) = ending.mark ++ rest :=
      skipSpaces_eq hspaces (TagEnd.stops_mark (by decide) (by decide))
    have hmid : Stops isNameChar mid :=
      hall.stops_isNameChar
        (stops_isNameChar_spaces hspaces (TagEnd.stops_mark (by decide) (by decide)))
    have hrest : Stops isNameStart (skipSpaces (spaces ++ (ending.mark ++ rest))) := by
      rw [hskip]
      exact TagEnd.stops_mark (by decide) (by decide)
    obtain ⟨stuck, hattributes⟩ := attributesAt_complete hall hrest le_rfl
    rw [startTag, name?_append hisName hmid]
    dsimp only
    rw [hattributes]
    dsimp only
    rw [hskip]
    cases ending <;> rfl

theorem closingTag_eq_ok_iff :
    closingTag cs = .ok (closing, rest) ↔ ClosingAt ('<' :: '/' :: cs) closing rest := by
  constructor
  · intro h
    rw [closingTag] at h
    split at h
    · cases h
    · rename_i name behind hname
      obtain ⟨hisName, hcs, -⟩ := name?_eq_some_iff.1 hname
      obtain ⟨spaces, hspaces, hbehind, -⟩ := exists_spaces behind
      split at h
      · rename_i hskip
        cases h
        rw [hskip] at hbehind
        exact .intro (by rw [hcs, hbehind]) hisName hspaces
      · cases h
  · rintro @⟨name, spaces, rest, hsplit, hisName, hspaces⟩
    obtain rfl : cs = name ++ (spaces ++ '>' :: rest) := by simpa using hsplit
    have hend : Stops isNameChar (spaces ++ '>' :: rest) :=
      stops_isNameChar_spaces hspaces (stops_cons (by decide))
    have hskip : skipSpaces (spaces ++ '>' :: rest) = '>' :: rest :=
      skipSpaces_eq hspaces (stops_cons (by decide))
    rw [closingTag, name?_append hisName hend]
    dsimp only
    rw [hskip]
    rfl

end Tags

end HandlerScript.Markup
