import HandlerScript.Proofs.Markup.Acceptance
import HandlerScript.Proofs.Markup.Places

/-! The violation that is reported.

    A document breaks a rule where an attribute repeats a name of its tag, and where a closing tag does
    not repeat the name of its element. Building walks the tree depth first and stops at the first rule
    that is broken: the attributes of an element come before its content, and its closing tag behind it.
    The pieces of the source stand in the same order, each behind the end of the one before, so what is
    found first also starts first. -/

namespace HandlerScript

namespace Markup

/-! ### Violations -/

/-- An attribute of the tag has one of the given names, or that of an earlier attribute. -/
def Repeats (names : List String) (tag : String) (as : List Attribute) (v : Violation) : Prop :=
  ∃ before a after, as = before ++ a :: after ∧
    (String.ofList a.name ∈ names ∨ ∃ b ∈ before, b.name = a.name) ∧
    v = .duplicateAttribute (String.ofList a.name) tag a.extent

/-- The closing tag has another name than the element. -/
def Mismatches (tag : List Char) (closing : Option ClosingTag) (v : Violation) : Prop :=
  ∃ c ∈ closing, c.name ≠ tag ∧ v = .mismatchedClosing (String.ofList tag) (String.ofList c.name) c.extent

/-- An element breaks a rule in its attributes, in its content or at its closing tag. -/
inductive Item.Violates : Item → Violation → Prop
  | repeated {tag : Tag} {items : List Item} {closing : Option ClosingTag} {v : Violation} :
      Repeats [] (String.ofList tag.name) tag.attributes v → Violates (.element tag items closing) v
  | within {tag : Tag} {items : List Item} {closing : Option ClosingTag} {item : Item} {v : Violation} :
      item ∈ items → Violates item v → Violates (.element tag items closing) v
  | mismatched {tag : Tag} {items : List Item} {closing : Option ClosingTag} {v : Violation} :
      Mismatches tag.name closing v → Violates (.element tag items closing) v

/-- Some item of a list breaks a rule. -/
def AnyViolates (items : List Item) (v : Violation) : Prop := ∃ item ∈ items, item.Violates v

/-- The piece of the source that breaks the rule: an attribute, or a closing tag. -/
inductive Violation.OffendsAt (cs : List Char) : Violation → List Char → Prop
  | repeated {a : Attribute} {tag : String} {rest : List Char} : AttributeAt cs a rest →
      OffendsAt cs (.duplicateAttribute (String.ofList a.name) tag a.extent) rest
  | mismatched {c : ClosingTag} {tag : String} {rest : List Char} : ClosingAt cs c rest →
      OffendsAt cs (.mismatchedClosing tag (String.ofList c.name) c.extent) rest

/-- The offending piece in a source, behind the text in front of it. -/
def Violation.OffendsIn (v : Violation) (source front piece : List Char) : Prop :=
  ∃ behind, source = front ++ (piece ++ behind) ∧ v.OffendsAt (piece ++ behind) behind

/-! ### The order of the source -/

/-- The offending piece lies in a text, before what is left of it. -/
def Placed (cs rest : List Char) (v : Violation) : Prop :=
  ∃ start behind, start <:+ cs ∧ rest <:+ behind ∧ v.OffendsAt start behind

/-- The one of some violations that starts first. -/
def Earliest (P : Violation → Prop) (v : Violation) : Prop :=
  P v ∧ ∀ w, P w → w ≠ v → w.extent.left < v.extent.left

section Order

variable {cs mid rest : List Char} {a : Attribute} {c : ClosingTag} {v w : Violation}
  {P Q : Violation → Prop}

theorem AttributeAt.suffix (h : AttributeAt cs a rest) : rest <:+ cs := by
  obtain @⟨front, name, left, right, raw, rest, quote, rfl, -⟩ := h
  exact ⟨front ++ (name ++ (left ++ '=' :: (right ++ quote :: (raw ++ [quote])))), by simp⟩

theorem ClosingAt.suffix (h : ClosingAt cs c rest) : rest <:+ cs := by
  obtain @⟨name, spaces, rest, rfl, -⟩ := h
  exact ⟨'<' :: '/' :: (name ++ (spaces ++ ['>'])), by simp⟩

theorem SectionAt.suffix {opening closing : String} {body : List Char}
    (h : SectionAt opening closing cs body rest) : rest <:+ cs :=
  ⟨opening.toList ++ (body ++ closing.toList), by rw [h.split]; simp⟩

/-- The offending piece is where the extent of the violation says. -/
theorem Violation.OffendsAt.extent (h : v.OffendsAt cs rest) :
    v.extent = ⟨cs.length, rest.length⟩ ∧ rest.length < cs.length ∧ rest <:+ cs := by
  cases h with
  | repeated ha =>
    refine ⟨?_, ha.length_lt, ha.suffix⟩
    cases ha
    rfl
  | mismatched hc =>
    refine ⟨?_, hc.length_lt, hc.suffix⟩
    cases hc
    rfl

theorem Placed.mono {cs' rest' : List Char} (hcs : cs <:+ cs') (hrest : rest' <:+ rest)
    (h : Placed cs rest v) : Placed cs' rest' v := by
  obtain ⟨start, behind, hstart, hbehind, hpiece⟩ := h
  exact ⟨start, behind, hstart.trans hcs, hrest.trans hbehind, hpiece⟩

theorem Placed.exists_offendsIn (h : Placed cs rest v) : ∃ front piece, v.OffendsIn cs front piece := by
  obtain ⟨start, behind, ⟨front, rfl⟩, -, hpiece⟩ := h
  obtain ⟨-, -, piece, rfl⟩ := hpiece.extent
  exact ⟨front, piece, behind, rfl, hpiece⟩

/-- The text in front of an offending piece is as long as the extent leaves it. -/
theorem Violation.OffendsIn.length {front piece : List Char} (h : v.OffendsIn cs front piece) :
    front.length + v.extent.left = cs.length := by
  obtain ⟨behind, rfl, hpiece⟩ := h
  rw [hpiece.extent.1]
  exact List.length_append.symm

theorem Violation.OffendsIn.length_pos {front piece : List Char} (h : v.OffendsIn cs front piece) :
    0 < piece.length := by
  obtain ⟨behind, -, hpiece⟩ := h
  have hlt := hpiece.extent.2.1
  rw [List.length_append] at hlt
  omega

/-- The extent of a violation covers its piece. -/
theorem Violation.OffendsIn.covers {front piece : List Char} (h : v.OffendsIn cs front piece) :
    (v.extent.span cs).Covers front piece := by
  obtain ⟨behind, rfl, hpiece⟩ := h
  rw [hpiece.extent.1]
  exact Extent.covers front piece behind

/-- A piece that lies behind another starts later. -/
theorem Placed.lt (hv : Placed cs mid v) (hw : Placed mid rest w) : w.extent.left < v.extent.left := by
  obtain ⟨start, behind, -, hbehind, hpiece⟩ := hv
  obtain ⟨start', behind', hstart', -, hpiece'⟩ := hw
  obtain ⟨hextent, hlt, -⟩ := hpiece.extent
  rw [hextent, hpiece'.extent.1]
  exact (hstart'.length_le.trans hbehind.length_le).trans_lt hlt

theorem Earliest.or_left (h : Earliest P v) (hQ : ∀ w, Q w → w.extent.left < v.extent.left) :
    Earliest (fun w => P w ∨ Q w) v := by
  refine ⟨.inl h.1, ?_⟩
  rintro w (hw | hw) hne
  · exact h.2 w hw hne
  · exact hQ w hw

theorem Earliest.or_right (h : Earliest Q v) (hP : ∀ w, ¬ P w) : Earliest (fun w => P w ∨ Q w) v :=
  ⟨.inr h.1, fun w hw => h.2 w (hw.resolve_left (hP w))⟩

end Order

/-! ### Building -/

/-- Building from a text, up to what is left of it: what is built breaks no rule, and where it fails, it
    fails with the earliest violation. -/
structure Reports {α : Type} (cs rest : List Char) (x : Except Violation α) (P : Violation → Prop) :
    Prop where
  suffix : rest <:+ cs
  placed : ∀ v, P v → Placed cs rest v
  ok : ∀ a, x = .ok a → ∀ v, ¬ P v
  error : ∀ v, x = .error v → Earliest P v

section Building

variable {α β : Type} {cs mid rest : List Char} {x : Except Violation α} {P Q : Violation → Prop}
  {a : Attribute} {as : List Attribute} {names : List String} {tag : String} {v : Violation}

theorem Reports.nothing (cs : List Char) (a : α) (hP : ∀ v, ¬ P v) : Reports cs cs (.ok a) P where
  suffix := List.suffix_refl cs
  placed v hv := absurd hv (hP v)
  ok _ _ := hP
  error _ h := nomatch h

theorem Reports.failed (hrest : rest <:+ cs) (hP : ∀ w, P w → Placed cs rest w) (hv : Earliest P v) :
    Reports cs rest (.error v : Except Violation α) P where
  suffix := hrest
  placed := hP
  ok _ h := nomatch h
  error := by
    rintro w ⟨⟩
    exact hv

theorem Reports.congr (h : Reports cs rest x P) (hPQ : ∀ v, Q v ↔ P v) : Reports cs rest x Q := by
  obtain rfl : Q = P := funext fun v => propext (hPQ v)
  exact h

/-- Text in front of what is built. -/
theorem Reports.behind (hmid : mid <:+ cs) (h : Reports mid rest x P) : Reports cs rest x P where
  suffix := h.suffix.trans hmid
  placed v hv := (h.placed v hv).mono hmid (List.suffix_refl rest)
  ok := h.ok
  error := h.error

/-- What is built behind something that breaks a rule is not reached, and starts later. -/
theorem Reports.bind [Nonempty α] {f : α → Except Violation β} (hx : Reports cs mid x P)
    (hf : ∀ a, Reports mid rest (f a) Q) : Reports cs rest (x >>= f) (fun v => P v ∨ Q v) := by
  obtain ⟨a₀⟩ := ‹Nonempty α›
  refine ⟨(hf a₀).suffix.trans hx.suffix, ?_, ?_, ?_⟩
  · rintro v (hv | hv)
    · exact (hx.placed v hv).mono (List.suffix_refl cs) (hf a₀).suffix
    · exact ((hf a₀).placed v hv).mono hx.suffix (List.suffix_refl rest)
  · intro b h
    obtain ⟨a, ha, hb⟩ := bind_eq_ok_iff.1 h
    rintro v (hv | hv)
    · exact hx.ok a ha v hv
    · exact (hf a).ok b hb v hv
  · intro v h
    cases x with
    | error e =>
      cases h
      have hv := hx.error v rfl
      exact hv.or_left fun w hw => (hx.placed v hv.1).lt ((hf a₀).placed w hw)
    | ok a => exact ((hf a).error v h).or_right (hx.ok a rfl)

/-! ### Attributes -/

theorem not_repeats_nil (names : List String) (tag : String) (v : Violation) : ¬ Repeats names tag [] v := by
  rintro ⟨before, a, after, heq, -⟩
  simp at heq

theorem repeats_cons_iff : Repeats names tag (a :: as) v ↔
    String.ofList a.name ∈ names ∧ v = .duplicateAttribute (String.ofList a.name) tag a.extent ∨
      Repeats (String.ofList a.name :: names) tag as v := by
  constructor
  · rintro ⟨before, b, after, heq, hname, rfl⟩
    cases before with
    | nil =>
      obtain ⟨rfl, rfl⟩ := List.cons.inj heq
      rcases hname with hname | ⟨_, hmem, -⟩
      · exact .inl ⟨hname, rfl⟩
      · cases hmem
    | cons d before =>
      obtain ⟨rfl, rfl⟩ := List.cons.inj heq
      refine .inr ⟨before, b, after, rfl, ?_, rfl⟩
      rcases hname with hname | ⟨d, hmem, hname⟩
      · exact .inl (List.mem_cons_of_mem _ hname)
      · rcases List.mem_cons.1 hmem with rfl | hmem
        · exact .inl (List.mem_cons.2 (.inl (congrArg String.ofList hname.symm)))
        · exact .inr ⟨d, hmem, hname⟩
  · rintro (⟨hname, rfl⟩ | ⟨before, b, after, rfl, hname, rfl⟩)
    · exact ⟨[], a, as, rfl, .inl hname, rfl⟩
    · refine ⟨a :: before, b, after, rfl, ?_, rfl⟩
      rcases hname with hname | ⟨d, hmem, hname⟩
      · rcases List.mem_cons.1 hname with heq | hname
        · exact .inr ⟨a, List.mem_cons_self, (String.ofList_injective heq).symm⟩
        · exact .inl hname
      · exact .inr ⟨d, List.mem_cons_of_mem a hmem, hname⟩

theorem Repeats.congr {names' : List String} (hnames : ∀ n, n ∈ names ↔ n ∈ names') :
    Repeats names tag as v ↔ Repeats names' tag as v := by
  simp only [Repeats, hnames]

theorem AttributesAt.suffix (h : AttributesAt cs as rest) : rest <:+ cs := by
  induction h with
  | nil cs => exact List.suffix_refl cs
  | cons ha _ ih => exact ih.trans ha.suffix

theorem AttributesAt.placed (h : AttributesAt cs as rest) (hv : Repeats names tag as v) :
    Placed cs rest v := by
  induction h generalizing names with
  | nil cs => exact absurd hv (not_repeats_nil names tag v)
  | cons ha hall ih =>
    rcases repeats_cons_iff.1 hv with ⟨-, rfl⟩ | hv
    · exact ⟨_, _, List.suffix_refl _, hall.suffix, .repeated ha⟩
    · exact (ih hv).mono ha.suffix (List.suffix_refl _)

/-- Of the attributes that repeat a name, the first is reported. -/
theorem AttributesAt.reports (h : AttributesAt cs as rest) (table : Table String) :
    Reports cs rest (tabulate tag table as) (Repeats table.names tag as) := by
  induction h generalizing table with
  | nil cs => exact .nothing cs table (not_repeats_nil table.names tag)
  | @cons cs mid rest a as ha hall ih =>
    by_cases hcontains : table.contains (String.ofList a.name) = true
    · have hbuild : tabulate tag table (a :: as) =
          .error (.duplicateAttribute (String.ofList a.name) tag a.extent) := by
        simp only [tabulate, hcontains, if_true]
      rw [hbuild]
      refine .failed (hall.suffix.trans ha.suffix) (fun v hv => (AttributesAt.cons ha hall).placed hv) ?_
      refine ⟨repeats_cons_iff.2 (.inl ⟨Table.contains_iff.1 hcontains, rfl⟩), fun w hw hne => ?_⟩
      rcases repeats_cons_iff.1 hw with ⟨-, rfl⟩ | hw
      · exact absurd rfl hne
      · exact Placed.lt ⟨cs, mid, List.suffix_refl _, List.suffix_refl _, .repeated ha⟩ (hall.placed hw)
    · have hnew : String.ofList a.name ∉ table.names := fun hmem => hcontains (Table.contains_iff.2 hmem)
      have hbuild : tabulate tag table (a :: as) =
          tabulate tag (table.insert (String.ofList a.name) (String.ofList (decode a.raw))) as := by
        simp only [tabulate, hcontains, if_false, Bool.false_eq_true]
      rw [hbuild]
      refine ((ih _).behind ha.suffix).congr fun v => ?_
      rw [repeats_cons_iff, or_iff_right fun h => hnew h.1]
      exact Repeats.congr fun n => by rw [Table.mem_names_insert hnew, List.mem_cons]

/-! ### Elements -/

theorem not_mismatches_none (tag : List Char) (v : Violation) : ¬ Mismatches tag none v := by
  rintro ⟨c, hmem, -⟩
  cases hmem

theorem ClosingAt.reports {c : ClosingTag} (h : ClosingAt cs c rest) (tag : List Char) :
    Reports cs rest (checkClosing (String.ofList tag) (some c)) (Mismatches tag (some c)) := by
  have hplaced : ∀ v, Mismatches tag (some c) v → Placed cs rest v := by
    rintro v ⟨_, ⟨⟩, -, rfl⟩
    exact ⟨cs, rest, List.suffix_refl cs, List.suffix_refl rest, .mismatched h⟩
  by_cases hname : c.name = tag
  · refine ⟨h.suffix, hplaced, ?_, ?_⟩
    · rintro a - v ⟨_, ⟨⟩, hne, -⟩
      exact hne hname
    · intro v hv
      simp [checkClosing, hname] at hv
  · have hbuild : checkClosing (String.ofList tag) (some c) =
        .error (.mismatchedClosing (String.ofList tag) (String.ofList c.name) c.extent) :=
      if_neg fun heq => hname (String.ofList_injective heq)
    rw [hbuild]
    refine .failed h.suffix hplaced ⟨⟨c, rfl, hname, rfl⟩, ?_⟩
    rintro w ⟨_, ⟨⟩, -, rfl⟩ hne
    exact absurd rfl hne

theorem Item.violates_element_iff {tag : Tag} {items : List Item} {closing : Option ClosingTag} :
    (Item.element tag items closing).Violates v ↔ Repeats [] (String.ofList tag.name) tag.attributes v ∨
      AnyViolates items v ∨ Mismatches tag.name closing v := by
  constructor
  · rintro (h | ⟨hmem, h⟩ | h)
    · exact .inl h
    · exact .inr (.inl ⟨_, hmem, h⟩)
    · exact .inr (.inr h)
  · rintro (h | ⟨item, hmem, h⟩ | h)
    · exact .repeated h
    · exact .within hmem h
    · exact .mismatched h

theorem not_anyViolates_nil (v : Violation) : ¬ AnyViolates [] v := by
  rintro ⟨item, hmem, -⟩
  cases hmem

theorem anyViolates_cons_iff {item : Item} {items : List Item} :
    AnyViolates (item :: items) v ↔ item.Violates v ∨ AnyViolates items v := by
  simp only [AnyViolates, List.exists_mem_cons_iff]

/-- The attributes are entered first, then the content is built, then the closing tag is checked. -/
theorem Item.reports_element {a b : List Char} {tag : Tag} {items : List Item} {closing : Option ClosingTag}
    (hall : AttributesAt cs tag.attributes a) (hitems : Reports a b (buildAll items) (AnyViolates items))
    (hclosing : Reports b rest (checkClosing (String.ofList tag.name) closing)
      (Mismatches tag.name closing)) :
    Reports cs rest (Item.element tag items closing).build (Item.element tag items closing).Violates := by
  rw [Item.build]
  refine ((hall.reports ∅).bind fun attributes => hitems.bind fun ⟨chars, children⟩ => hclosing.bind
    fun _ => Reports.nothing (P := fun _ => False) rest _ fun _ => id).congr fun v => ?_
  rw [Item.violates_element_iff, or_false]
  exact Iff.rfl

/-- An item in front of others is built before them. -/
theorem reports_cons {item : Item} {items : List Item} (hitem : Reports cs mid item.build item.Violates)
    (hitems : Reports mid rest (buildAll items) (AnyViolates items)) :
    Reports cs rest (buildAll (item :: items)) (AnyViolates (item :: items)) := by
  rw [buildAll]
  refine (hitem.bind fun ⟨chars, nodes⟩ => hitems.bind fun ⟨chars', nodes'⟩ =>
    Reports.nothing (P := fun _ => False) rest (chars ++ chars', nodes ++ nodes') fun _ => id).congr
      fun v => ?_
  rw [anyViolates_cons_iff, or_false]

mutual

theorem ElementAt.reports : ∀ {cs rest : List Char} {item : Item}, ElementAt cs item rest →
    Reports cs rest item.build item.Violates
  | _, _, _, @ElementAt.closed name mid spaces rest as _ hall _ => by
    have hend : rest <:+ spaces ++ '/' :: '>' :: rest := ⟨spaces ++ ['/', '>'], by simp⟩
    have hclosing : Reports rest rest (checkClosing (String.ofList name) none) (Mismatches name none) :=
      .nothing rest () (not_mismatches_none name)
    have hitems : Reports rest rest (buildAll []) (AnyViolates []) := by
      rw [buildAll]
      exact .nothing rest _ not_anyViolates_nil
    exact (Item.reports_element hall (hitems.behind hend) hclosing).behind
      (List.suffix_append ('<' :: name) mid)
  | _, _, _, @ElementAt.opened name mid spaces inner _ _ as _ _ _ hall _ hcontent hclosing =>
    have hend : inner <:+ spaces ++ '>' :: inner := ⟨spaces ++ ['>'], by simp⟩
    (Item.reports_element hall (hcontent.reports.behind hend) (hclosing.reports name)).behind
      (List.suffix_append ('<' :: name) mid)

theorem ContentAt.reports : ∀ {cs rest : List Char} {items : List Item}, ContentAt cs items rest →
    Reports cs rest (buildAll items) (AnyViolates items)
  | _, _, _, .nil cs => by
    rw [buildAll]
    exact .nothing cs _ not_anyViolates_nil
  | _, _, _, .comment hsection hcontent => hcontent.reports.behind hsection.suffix
  | _, _, _, @ContentAt.literal _ body mid _ _ hsection hcontent => by
    have hitem : Reports mid mid (Item.literal body).build (Item.literal body).Violates := by
      rw [Item.build]
      exact .nothing mid _ fun v hv => nomatch hv
    exact (reports_cons hitem hcontent.reports).behind hsection.suffix
  | _, _, _, .element helement hcontent => reports_cons helement.reports hcontent.reports
  | _, _, _, @ContentAt.text raw mid _ _ _ _ _ hcontent => by
    have hitem : Reports mid mid (Item.text raw).build (Item.text raw).Violates := by
      rw [Item.build]
      exact .nothing mid _ fun v hv => nomatch hv
    exact (reports_cons hitem hcontent.reports).behind (List.suffix_append raw mid)

end

end Building

/-! ### Documents -/

section Documents

variable {source cs rest : List Char} {root : Item}

theorem MiscAt.suffix (h : MiscAt cs rest) : rest <:+ cs := by
  induction h with
  | nil cs => exact List.suffix_refl cs
  | spaces _ _ _ ih => exact ih.trans (List.suffix_append _ _)
  | comment hsection _ ih => exact ih.trans hsection.suffix

theorem DeclarationAt.suffix (h : DeclarationAt cs rest) : rest <:+ cs := by
  cases h with
  | none => exact List.suffix_refl cs
  | some hsection => exact hsection.suffix

/-- The root of a document is built from a piece of the source. -/
theorem Derives.reports (h : Derives source root) :
    ∃ rest, Reports source rest root.build root.Violates := by
  obtain @⟨spaces, front, behind, start, rest, rfl, -, hdeclaration, hmisc, helement, -⟩ := h
  exact ⟨rest, helement.reports.behind
    (hmisc.suffix.trans (hdeclaration.suffix.trans (List.suffix_append spaces front)))⟩

end Documents

end Markup

namespace Source

open Markup
open Text (byteCount byteCount_append length_le_byteCount)

variable {source : List Char} {root : Item} {v : Violation}

/-- Reading a document ends in a violation exactly if building its root does. -/
theorem ofMarkup_eq_violation_iff (h : Derives source root) :
    ofMarkup source = .error (.violation v) ↔ root.build = .error v := by
  simp only [ofMarkup, document_eq_ok_iff.2 h]
  cases root.build with
  | error w => simp
  | ok p => simp

/-- A document that breaks rules is a violation: the one whose offending piece starts first. The span of
    the error covers the piece, which is not empty and lies in the source. -/
theorem ofMarkup_reports_first (h : Derives source root) (hbad : ∃ v, root.Violates v) :
    ∃ v front piece, ofMarkup source = .error (.violation v) ∧ root.Violates v ∧
      v.OffendsIn source front piece ∧ ((Error.violation v).span source).Covers front piece ∧
      ((Error.violation v).span source).start < ((Error.violation v).span source).stop ∧
      ((Error.violation v).span source).stop ≤ byteCount source ∧
      ∀ w, root.Violates w → w ≠ v →
        ∃ front' piece', w.OffendsIn source front' piece' ∧ front.length < front'.length := by
  obtain ⟨rest, hreports⟩ := h.reports
  cases hbuild : root.build with
  | ok p =>
    obtain ⟨v, hv⟩ := hbad
    exact absurd hv (hreports.ok p hbuild v)
  | error v =>
    obtain ⟨hv, hfirst⟩ := hreports.error v hbuild
    obtain ⟨front, piece, hpiece⟩ := (hreports.placed v hv).exists_offendsIn
    have hcovers : ((Error.violation v).span source).Covers front piece := hpiece.covers
    refine ⟨v, front, piece, (ofMarkup_eq_violation_iff h).2 hbuild, hv, hpiece, hcovers, ?_, ?_, ?_⟩
    · rw [hcovers.start, hcovers.stop, byteCount_append]
      have := hpiece.length_pos
      have := length_le_byteCount piece
      omega
    · obtain ⟨behind, hsource, -⟩ := hpiece
      rw [hcovers.stop, hsource, byteCount_append, byteCount_append, byteCount_append]
      omega
    · intro w hw hne
      obtain ⟨front', piece', hpiece'⟩ := (hreports.placed w hw).exists_offendsIn
      have hlater := hfirst w hw hne
      have hlength := hpiece.length
      have hlength' := hpiece'.length
      exact ⟨front', piece', hpiece', by omega⟩

/-- A document that breaks two rules: an element inside repeats the name of an attribute, and the last
    tag has another name than the first. -/
def twofold : Item :=
  .element ⟨"A".toList, [⟨"x".toList, "é".toList, ⟨29, 23⟩⟩]⟩
    [.text "\r\n".toList,
      .element ⟨"B".toList, [⟨"y".toList, "1".toList, ⟨18, 12⟩⟩,
        ⟨"y".toList, "2".toList, ⟨12, 6⟩⟩]⟩ [] none]
    (some ⟨"C".toList, ⟨4, 0⟩⟩)

theorem derives_twofold : Derives "<A x='é'>\r\n<B y='1' y='2'/></C>".toList twofold := by
  have hattribute : ∀ (name value : Char) (rest : List Char), IsName [name] → value ≠ '\'' →
      AttributeAt (' ' :: name :: '=' :: '\'' :: value :: '\'' :: rest)
        ⟨[name], [value], ⟨rest.length + 6, rest.length⟩⟩ rest := by
    intro name value rest hname hvalue
    refine .intro (show _ = [' '] ++ ([name] ++ ([] ++ '=' :: ([] ++ '\'' :: ([value] ++ '\'' :: rest))))
      from rfl) (by decide) (by simp [Spaces, isSpace]) hname spaces_nil spaces_nil (.inr rfl) ?_
    rw [List.mem_singleton]
    exact Ne.symm hvalue
  have hclosing : ClosingAt "</C>".toList ⟨"C".toList, ⟨4, 0⟩⟩ [] :=
    .intro (show _ = '<' :: '/' :: ("C".toList ++ ([] ++ '>' :: [])) from rfl) (by decide) spaces_nil
  have hinner := @ElementAt.closed "B".toList _ [] "</C>".toList _ (by decide)
    (.cons (hattribute 'y' '1' _ (by decide) (by decide))
      (.cons (hattribute 'y' '2' _ (by decide) (by decide)) (.nil _))) spaces_nil
  have hcontent := @ContentAt.text "\r\n".toList _ _ _ (by decide) (by decide)
    (by rintro c ⟨⟩; rfl) (.element hinner (.nil _))
  have houter := @ElementAt.opened "A".toList _ [] _ _ _ _ _ _ (by decide)
    (.cons (hattribute 'x' 'é' _ (by decide) (by decide)) (.nil _)) spaces_nil hcontent hclosing
  exact .intro rfl spaces_nil (.none _) (.nil _) houter (.nil [])

/-- The inner violation is reported, since it starts first; a character of two bytes stands before it. -/
theorem ofMarkup_reports_first_twofold : ∃ v front piece,
    ofMarkup "<A x='é'>\r\n<B y='1' y='2'/></C>".toList = .error (.violation v) ∧
    v.OffendsIn "<A x='é'>\r\n<B y='1' y='2'/></C>".toList front piece ∧
    v.message = "Duplicate attribute `y` on <B>" ∧
    (Error.violation v).span "<A x='é'>\r\n<B y='1' y='2'/></C>".toList = ⟨20, 26, 1, 8⟩ := by
  have hmismatch : twofold.Violates (.mismatchedClosing "A" "C" ⟨4, 0⟩) :=
    .mismatched ⟨_, rfl, by decide, rfl⟩
  obtain ⟨v, front, piece, hv, -, hpiece, -⟩ := ofMarkup_reports_first derives_twofold ⟨_, hmismatch⟩
  have hbuild : twofold.build = .error (.duplicateAttribute "y" "B" ⟨12, 6⟩) := rfl
  obtain rfl := Except.error.inj (hbuild.symm.trans ((ofMarkup_eq_violation_iff derives_twofold).1 hv))
  exact ⟨_, front, piece, hv, hpiece, by decide, by decide⟩

end Source

end HandlerScript
