import HandlerScript.Markup.Written
import HandlerScript.Proofs.Markup.Acceptance
import HandlerScript.Proofs.Markup.References
import Mathlib.Data.List.Nodup

/-! Reading what was written.

    A tree whose tags and attribute names are names, and whose texts have no blanks at their ends, is
    read back from its markup. The attributes of a node may be written in any order: a table has none.
    Escaping leaves no quote in a value and no bracket in a text, so each ends where it was meant to,
    and what it wrote is decoded once, reference by reference. -/

namespace HandlerScript

namespace Markup

/-! ### Escaping -/

/-- Each character is written as itself or as a reference to it: the ampersand and a mark as
    references, in which the mark does not occur. -/
structure Escapes (mark : Char) (escape : Char → List Char) : Prop where
  mark_ne : mark ≠ '&' ∧ mark ≠ ';'
  written : ∀ c, (c ≠ '&' ∧ c ≠ mark ∧ escape c = [c]) ∨
    ∃ name, escape c = '&' :: (name ++ [';']) ∧ ';' ∉ name ∧ mark ∉ name ∧ referent? name = some c

theorem escapes_valueChar : Escapes '"' valueChar := by
  refine ⟨by decide, fun c => ?_⟩
  by_cases hamp : c = '&'
  · subst hamp
    exact .inr ⟨"amp".toList, rfl, by decide, by decide, rfl⟩
  · by_cases hquote : c = '"'
    · subst hquote
      exact .inr ⟨"quot".toList, rfl, by decide, by decide, rfl⟩
    · exact .inl ⟨hamp, hquote, by rw [valueChar, if_neg hamp, if_neg hquote]⟩

theorem escapes_textChar : Escapes '<' textChar := by
  refine ⟨by decide, fun c => ?_⟩
  by_cases hamp : c = '&'
  · subst hamp
    exact .inr ⟨"amp".toList, rfl, by decide, by decide, rfl⟩
  · by_cases hbracket : c = '<'
    · subst hbracket
      exact .inr ⟨"lt".toList, rfl, by decide, by decide, rfl⟩
    · exact .inl ⟨hamp, hbracket, by rw [textChar, if_neg hamp, if_neg hbracket]⟩

/-- What is escaped is decoded to itself. -/
theorem Escapes.decode_flatMap {mark : Char} {escape : Char → List Char} (h : Escapes mark escape) :
    ∀ cs : List Char, decode (cs.flatMap escape) = cs
  | [] => rfl
  | c :: cs => by
    rw [List.flatMap_cons]
    rcases h.written c with ⟨hne, -, hself⟩ | ⟨name, hreference, -, -, hreferent⟩
    · rw [hself, List.singleton_append, decode_char_of_ne hne, h.decode_flatMap cs]
    · rw [hreference, List.cons_append, List.append_assoc, List.singleton_append,
        decode_reference (referent?_eq_some_iff.1 hreferent), h.decode_flatMap cs]

theorem Escapes.not_mem_flatMap {mark : Char} {escape : Char → List Char} (h : Escapes mark escape)
    (cs : List Char) : mark ∉ cs.flatMap escape := by
  rw [List.mem_flatMap]
  rintro ⟨c, -, hmem⟩
  rcases h.written c with ⟨-, hne, hself⟩ | ⟨name, hreference, -, hname, -⟩
  · rw [hself, List.mem_singleton] at hmem
    exact hne hmem.symm
  · rw [hreference, List.mem_cons, List.mem_append, List.mem_singleton] at hmem
    rcases hmem with hamp | hmem | hsemicolon
    · exact h.mark_ne.1 hamp
    · exact hname hmem
    · exact h.mark_ne.2 hsemicolon

theorem Escapes.flatMap_ne_nil {mark : Char} {escape : Char → List Char} (h : Escapes mark escape) :
    ∀ {cs : List Char}, cs ≠ [] → cs.flatMap escape ≠ []
  | [], hne => absurd rfl hne
  | c :: cs, _ => by
    rw [List.flatMap_cons]
    rcases h.written c with ⟨-, -, hself⟩ | ⟨name, hreference, -⟩
    · rw [hself]
      exact List.cons_ne_nil _ _
    · rw [hreference]
      exact List.cons_ne_nil _ _

end Markup

/-! ### Written trees -/

namespace Node

open Markup

/-- Trees that markup can hold: their tags and attribute names are names, and a text is not empty and
    has no blanks at its ends. -/
inductive Writable : Node → Prop
  | intro {tag : String} {attributes : Table String} {text : Option String} {children : List Node}
      (isName : IsName tag.toList) (names : ∀ e ∈ attributes.entries, IsName e.1.toList)
      (trimmed : ∀ t ∈ text, t ≠ "" ∧ Text.trim t = t) (below : ∀ c ∈ children, c.Writable) :
      Writable ⟨tag, attributes, text, children⟩

mutual

/-- The markup of a node, with its attributes in some order. -/
inductive WrittenAs : Node → List Char → Prop
  | closed {tag : String} {attributes : Table String} {pairs : List (String × String)} :
      pairs.Perm attributes.entries →
      WrittenAs ⟨tag, attributes, none, []⟩
        ('<' :: (tag.toList ++ (pairs.flatMap attributeMarkup ++ ['/', '>'])))
  | opened {tag : String} {attributes : Table String} {text : Option String} {children : List Node}
      {pairs : List (String × String)} {inner : List Char} :
      (text.isNone && children.isEmpty) = false → pairs.Perm attributes.entries →
      AllWrittenAs children inner →
      WrittenAs ⟨tag, attributes, text, children⟩
        ('<' :: (tag.toList ++ (pairs.flatMap attributeMarkup ++
          '>' :: (textMarkup text ++ (inner ++ ('<' :: '/' :: (tag.toList ++ ['>'])))))))

/-- The markup of nodes, one behind the other. -/
inductive AllWrittenAs : List Node → List Char → Prop
  | nil : AllWrittenAs [] []
  | cons {n : Node} {ns : List Node} {cs more : List Char} :
      WrittenAs n cs → AllWrittenAs ns more → AllWrittenAs (n :: ns) (cs ++ more)

end

mutual

/-- A node is written with its attributes in the order of their names. -/
theorem writtenAs_markup : ∀ n : Node, n.WrittenAs n.markup
  | ⟨tag, attributes, text, children⟩ => by
    rw [markup]
    split
    · rename_i h
      rw [Bool.and_eq_true, Option.isNone_iff_eq_none, List.isEmpty_iff] at h
      obtain ⟨rfl, rfl⟩ := h
      have hclosed : WrittenAs ⟨tag, attributes, none, []⟩ _ := .closed (.refl attributes.entries)
      simpa [openingMarkup] using hclosed
    · rename_i h
      have hopened : WrittenAs ⟨tag, attributes, text, children⟩ _ :=
        .opened (Bool.eq_false_iff.2 h) (.refl attributes.entries) (allWrittenAs_markupAll children)
      simpa [openingMarkup] using hopened

theorem allWrittenAs_markupAll : ∀ ns : List Node, AllWrittenAs ns (markupAll ns)
  | [] => .nil
  | n :: ns => .cons (writtenAs_markup n) (allWrittenAs_markupAll ns)

end

end Node

/-! ### Derivations of written trees -/

namespace Markup

open Node

/-- A text divides into a well-formed element that stands for a node, and what is left behind it. -/
def ElementShows (cs : List Char) (n : Node) (rest : List Char) : Prop :=
  ∃ item, ElementAt cs item rest ∧ item.WellFormed ∧ item.chars = [] ∧ item.nodes = [n]

/-- A text divides into well-formed content that adds characters and nodes, and what is left. -/
def ContentShows (cs text : List Char) (ns : List Node) (rest : List Char) : Prop :=
  ∃ items, ContentAt cs items rest ∧ (∀ item ∈ items, item.WellFormed) ∧
    items.flatMap Item.chars = text ∧ allNodes items = ns

section Shows

variable {cs mid rest chars : List Char} {n : Node} {ns : List Node}

theorem ContentShows.nil (cs : List Char) : ContentShows cs [] [] cs :=
  ⟨[], .nil cs, fun _ h => (nomatch h), rfl, rfl⟩

theorem ContentShows.cons (h : ElementShows cs n mid) (hmore : ContentShows mid chars ns rest) :
    ContentShows cs chars (n :: ns) rest := by
  obtain ⟨item, hitem, hwf, hchars, hnodes⟩ := h
  obtain ⟨items, hitems, hwfs, rfl, rfl⟩ := hmore
  refine ⟨item :: items, .element hitem hitems, List.forall_mem_cons.2 ⟨hwf, hwfs⟩, ?_, ?_⟩
  · rw [List.flatMap_cons, hchars, List.nil_append]
  · rw [allNodes, hnodes, List.singleton_append]

/-- The text of a node stands before its children. -/
theorem ContentShows.text {t : Option String} (ht : ∀ s ∈ t, s ≠ "") (hmid : ∀ c ∈ mid.head?, c = '<')
    (h : ContentShows mid [] ns rest) :
    ContentShows (textMarkup t ++ mid) (t.getD "").toList ns rest := by
  cases t with
  | none => exact h
  | some s =>
    obtain ⟨items, hitems, hwf, hchars, rfl⟩ := h
    have hne : s.toList ≠ [] := fun hnil => ht s rfl (String.toList_eq_nil_iff.1 hnil)
    refine ⟨.text (s.toList.flatMap textChar) :: items, ?_, ?_, ?_, ?_⟩
    · exact .text (escapes_textChar.flatMap_ne_nil hne) (escapes_textChar.not_mem_flatMap _) hmid hitems
    · exact List.forall_mem_cons.2 ⟨.text _, hwf⟩
    · rw [List.flatMap_cons, hchars, List.append_nil]
      exact escapes_textChar.decode_flatMap s.toList
    · rw [allNodes, Item.nodes, List.nil_append]

theorem attributeAt_markup {e : String × String} (h : IsName e.1.toList) (rest : List Char) :
    ∃ a, AttributeAt (attributeMarkup e ++ rest) a rest ∧ a.name = e.1.toList ∧ a.entry = e := by
  have hsplit : attributeMarkup e ++ rest = [' '] ++ (e.1.toList ++ ([] ++ '=' :: ([] ++
      '"' :: (e.2.toList.flatMap valueChar ++ '"' :: rest)))) := by simp [attributeMarkup]
  have hblank : Spaces [' '] := by simp [Spaces, isSpace]
  refine ⟨_, .intro hsplit (by decide) hblank h spaces_nil spaces_nil (.inl rfl)
    (escapes_valueChar.not_mem_flatMap e.2.toList), rfl, ?_⟩
  rw [Attribute.entry, escapes_valueChar.decode_flatMap, String.ofList_toList, String.ofList_toList]

theorem attributesAt_markup (rest : List Char) : ∀ {pairs : List (String × String)},
    (∀ e ∈ pairs, IsName e.1.toList) →
    ∃ as, AttributesAt (pairs.flatMap attributeMarkup ++ rest) as rest ∧
      as.map (·.name) = (pairs.map (·.1)).map String.toList ∧ as.map Attribute.entry = pairs
  | [], _ => ⟨[], .nil rest, rfl, rfl⟩
  | e :: pairs, h => by
    obtain ⟨he, hpairs⟩ := List.forall_mem_cons.1 h
    obtain ⟨as, has, hnames, hentries⟩ := attributesAt_markup rest hpairs
    obtain ⟨a, ha, hname, hentry⟩ := attributeAt_markup he (pairs.flatMap attributeMarkup ++ rest)
    rw [List.flatMap_cons, List.append_assoc]
    exact ⟨a :: as, .cons ha has, by simp [hname, hnames], by simp [hentry, hentries]⟩

/-- The attributes of a table, written in any order, are distinct and give the table back. -/
theorem attributesAt_table {attributes : Table String} {pairs : List (String × String)}
    (hperm : pairs.Perm attributes.entries) (hnames : ∀ e ∈ attributes.entries, IsName e.1.toList)
    (rest : List Char) :
    ∃ as, AttributesAt (pairs.flatMap attributeMarkup ++ rest) as rest ∧
      (as.map (·.name)).Nodup ∧ Table.ofList (as.map Attribute.entry) = attributes := by
  obtain ⟨as, has, hname, hentry⟩ :=
    attributesAt_markup rest fun e he => hnames e (hperm.mem_iff.1 he)
  refine ⟨as, has, ?_, hentry ▸ Table.ofList_of_perm hperm⟩
  have hnodup : (pairs.map (·.1)).Nodup := (hperm.map _).nodup_iff.2 attributes.names_nodup
  rw [hname]
  exact List.Nodup.map (fun _ _ => String.toList_injective) hnodup

/-- A trimmed text is what is left of it when it is read. -/
theorem nonBlank?_getD {t : Option String} (h : ∀ s ∈ t, s ≠ "" ∧ Text.trim s = s) :
    Text.nonBlank? (t.getD "") = t := by
  cases t with
  | none => rfl
  | some s =>
    obtain ⟨hne, htrim⟩ := h s rfl
    rw [Option.getD_some, Text.nonBlank?, htrim]
    simp [hne]

variable {tag : String} {attributes : Table String} {t : Option String}
  {pairs : List (String × String)}

theorem ElementShows.closed (htag : IsName tag.toList)
    (hnames : ∀ e ∈ attributes.entries, IsName e.1.toList) (hperm : pairs.Perm attributes.entries)
    (rest : List Char) :
    ElementShows ('<' :: (tag.toList ++ (pairs.flatMap attributeMarkup ++ '/' :: '>' :: rest)))
      ⟨tag, attributes, none, []⟩ rest := by
  obtain ⟨as, has, hnodup, htable⟩ := attributesAt_table hperm hnames ([] ++ '/' :: '>' :: rest)
  refine ⟨_, .closed htag has spaces_nil, ?_, rfl, ?_⟩
  · exact .element hnodup (fun _ h => (nomatch h)) fun _ h => (nomatch h)
  · rw [Item.nodes, htable, String.ofList_toList]
    rfl

theorem ElementShows.opened (htag : IsName tag.toList)
    (hnames : ∀ e ∈ attributes.entries, IsName e.1.toList) (hperm : pairs.Perm attributes.entries)
    (ht : ∀ s ∈ t, s ≠ "" ∧ Text.trim s = s) {inner : List Char}
    (hinner : ContentShows inner (t.getD "").toList ns ('<' :: '/' :: (tag.toList ++ '>' :: rest))) :
    ElementShows ('<' :: (tag.toList ++ (pairs.flatMap attributeMarkup ++ '>' :: inner)))
      ⟨tag, attributes, t, ns⟩ rest := by
  obtain ⟨as, has, hnodup, htable⟩ := attributesAt_table hperm hnames ([] ++ '>' :: inner)
  obtain ⟨items, hitems, hwf, hchars, rfl⟩ := hinner
  have hclosing : ClosingAt ('<' :: '/' :: (tag.toList ++ '>' :: rest)) _ rest :=
    .intro (by rw [List.nil_append]) htag spaces_nil
  refine ⟨_, .opened htag has spaces_nil hitems hclosing, ?_, rfl, ?_⟩
  · refine .element hnodup ?_ hwf
    rintro c ⟨⟩
    rfl
  · rw [Item.nodes, htable, hchars, String.ofList_toList, String.ofList_toList, nonBlank?_getD ht]

end Shows

end Markup

namespace Node

open Markup

/-- Written nodes begin with a bracket, and so does a closing tag behind them. -/
theorem AllWrittenAs.head_eq {ns : List Node} {cs : List Char} (h : AllWrittenAs ns cs)
    (rest : List Char) : ∀ c ∈ (cs ++ '<' :: rest).head?, c = '<' := by
  intro c hc
  cases h with
  | nil => exact (Option.mem_some.1 hc).symm
  | cons hn _ => cases hn <;> exact (Option.mem_some.1 hc).symm

mutual

/-- What is written for a node is an element that stands for it. -/
theorem WrittenAs.shows : ∀ {n : Node} {cs : List Char}, n.WrittenAs cs → n.Writable →
    ∀ rest, ElementShows (cs ++ rest) n rest
  | _, _, .closed hperm, .intro htag hnames _ _, rest => by
    have hshows := ElementShows.closed htag hnames hperm rest
    simpa using hshows
  | _, _, @WrittenAs.opened tag _ _ _ _ _ _ hperm hchildren, .intro htag hnames ht hbelow, rest => by
    have hinner := hchildren.shows hbelow ('<' :: '/' :: (tag.toList ++ '>' :: rest))
    have hcontent := hinner.text (fun s hs => (ht s hs).1) (hchildren.head_eq _)
    have hshows := ElementShows.opened htag hnames hperm ht hcontent
    simpa using hshows

theorem AllWrittenAs.shows : ∀ {ns : List Node} {cs : List Char}, AllWrittenAs ns cs →
    (∀ n ∈ ns, n.Writable) → ∀ rest, ContentShows (cs ++ rest) [] ns rest
  | _, _, .nil, _, rest => .nil rest
  | _, _, .cons hn hns, h, rest => by
    obtain ⟨hfirst, hmore⟩ := List.forall_mem_cons.1 h
    rw [List.append_assoc]
    exact .cons (hn.shows hfirst _) (hns.shows hmore rest)

end

/-- A written tree is a document that stands for the tree. -/
theorem WrittenAs.derives {n : Node} {cs : List Char} (h : n.WrittenAs cs) (hn : n.Writable) :
    ∃ root, Derives cs root ∧ root.WellFormed ∧ root.nodes = [n] := by
  obtain ⟨root, helement, hwf, -, hnodes⟩ := h.shows hn []
  rw [List.append_nil] at helement
  exact ⟨root, .intro (List.nil_append cs).symm spaces_nil (.none cs) (.nil cs) helement (.nil []),
    hwf, hnodes⟩

theorem WrittenAs.isJson_eq_false {n : Node} {cs : List Char} (h : n.WrittenAs cs) :
    Source.isJson cs = false := by
  cases h <;> rfl

end Node

/-! ### Reading back -/

open Node in
/-- Every tree that markup can hold is read back from its markup, in whatever order the attributes of
    its nodes were written. -/
theorem Source.parse_written (n : Node) (hn : n.Writable) :
    n.WrittenAs n.markup ∧
      ∀ cs, n.WrittenAs cs → Source.ofMarkup cs = .ok n ∧ Source.parse cs = .ok n := by
  refine ⟨writtenAs_markup n, fun cs h => ?_⟩
  obtain ⟨root, hroot, hwf, hnode⟩ := h.derives hn
  have hread := Source.ofMarkup_of_wellFormed hroot hwf hnode
  refine ⟨hread, ?_⟩
  rw [Source.parse, h.isJson_eq_false, if_neg Bool.false_ne_true, hread]

/-- A node whose attributes and text look like other things. -/
def Node.masked : Node where
  tag := "Say"
  attributes := .ofList [("to", "\"{you} & me\""), ("as", "&amp;")]
  text := some "]]> --> <b>"
  children := [{ tag := "Wait" }]

theorem Node.masked_writable : Node.masked.Writable := by
  refine .intro (by decide +kernel) (by decide +kernel) ?_ ?_
  · rintro t ⟨⟩
    exact ⟨by decide +kernel, by decide +kernel⟩
  · intro c hc
    obtain rfl := List.mem_singleton.1 hc
    exact .intro (by decide +kernel) (fun _ h => (nomatch h)) (fun _ h => (nomatch h))
      fun _ h => (nomatch h)

/-- The attributes of the node in another order than the table has them. -/
theorem Node.masked_writtenAs : Node.masked.WrittenAs
    "<Say to=\"&quot;{you} &amp; me&quot;\" as=\"&amp;amp;\">]]> --> &lt;b><Wait/></Say>".toList := by
  have hentries : [("to", "\"{you} & me\""), ("as", "&amp;")].Perm Node.masked.attributes.entries := by
    decide +kernel
  have hchildren : Node.AllWrittenAs [{ tag := "Wait" }] _ := .cons (.closed (.refl [])) .nil
  have hwritten : Node.masked.WrittenAs _ := .opened rfl hentries hchildren
  refine Eq.mp (congrArg Node.masked.WrittenAs ?_) hwritten
  decide +kernel

theorem Source.parse_written_masked : Node.masked.Writable ∧ Source.parse
    "<Say to=\"&quot;{you} &amp; me&quot;\" as=\"&amp;amp;\">]]> --> &lt;b><Wait/></Say>".toList =
      .ok Node.masked :=
  ⟨Node.masked_writable,
    ((Source.parse_written Node.masked Node.masked_writable).2 _ Node.masked_writtenAs).2⟩

end HandlerScript
