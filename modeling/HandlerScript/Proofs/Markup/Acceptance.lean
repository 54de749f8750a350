import HandlerScript.Proofs.Markup.Documents
import HandlerScript.Proofs.Table
import HandlerScript.Source

/-! Which sources are command trees.

    A source becomes a tree exactly if the grammar derives it as a document whose closing tags match
    and whose attributes are distinct, and the tree is the one that the derivation shows. The two ways
    to fail are kept apart: a source without a derivation gets the reader stuck, and one with a
    derivation that breaks a rule is a violation. -/

namespace HandlerScript

namespace Markup

/-! ### Building -/

/-- Attributes are entered exactly if their names are new and distinct. -/
theorem tabulate_eq_ok_iff {tag : String} : ∀ {as : List Attribute} {table result : Table String},
    tabulate tag table as = .ok result ↔ (as.map (·.name)).Nodup ∧
      (∀ a ∈ as, String.ofList a.name ∉ table.names) ∧ table.insertAll (as.map Attribute.entry) = result
  | [], table, result => by simp [tabulate, Table.insertAll]
  | a :: as, table, result => by
    rw [tabulate]
    split
    · rename_i hcontains
      constructor
      · intro h
        cases h
      · rintro ⟨-, hnew, -⟩
        exact absurd (Table.contains_iff.1 hcontains) (hnew a List.mem_cons_self)
    · rename_i hcontains
      have ha : String.ofList a.name ∉ table.names := fun h => hcontains (Table.contains_iff.2 h)
      rw [tabulate_eq_ok_iff, List.map_cons, List.nodup_cons, List.forall_mem_cons]
      constructor
      · rintro ⟨hnodup, hnew, hresult⟩
        refine ⟨⟨fun hmem => ?_, hnodup⟩, ⟨ha, fun b hb hmem => ?_⟩, hresult⟩
        · obtain ⟨b, hb, hname⟩ := List.mem_map.1 hmem
          exact hnew b hb ((Table.mem_names_insert ha).2 (.inl (congrArg String.ofList hname)))
        · exact hnew b hb ((Table.mem_names_insert ha).2 (.inr hmem))
      · rintro ⟨⟨hname, hnodup⟩, ⟨-, hnew⟩, hresult⟩
        refine ⟨hnodup, fun b hb hmem => ?_, hresult⟩
        rcases (Table.mem_names_insert ha).1 hmem with heq | hmem
        · exact hname (List.mem_map.2 ⟨b, hb, String.ofList_injective heq⟩)
        · exact hnew b hb hmem

theorem checkClosing_eq_ok_iff {name : List Char} {closing : Option ClosingTag} :
    checkClosing (String.ofList name) closing = .ok () ↔ ∀ c ∈ closing, c.name = name := by
  cases closing with
  | none => simp [checkClosing]
  | some c =>
    rw [checkClosing]
    split
    · rename_i heq
      simp [String.ofList_injective heq]
    · rename_i hne
      simp only [reduceCtorEq, Option.mem_some, forall_eq', false_iff]
      exact fun heq => hne (congrArg String.ofList heq)

theorem Item.wellFormed_element_iff {tag : Tag} {items : List Item} {closing : Option ClosingTag} :
    (Item.element tag items closing).WellFormed ↔ (tag.attributes.map (·.name)).Nodup ∧
      (∀ item ∈ items, item.WellFormed) ∧ ∀ c ∈ closing, c.name = tag.name := by
  constructor
  · rintro ⟨⟩
    exact ⟨‹_›, ‹_›, ‹_›⟩
  · rintro ⟨hnodup, hitems, hclosing⟩
    exact .element hnodup hclosing hitems

mutual

/-- An item is built exactly if it is well-formed, into the characters and nodes that it shows. -/
theorem Item.build_eq_ok_iff : ∀ {item : Item} {text : List Char} {nodes : List Node},
    item.build = .ok (text, nodes) ↔ item.WellFormed ∧ item.chars = text ∧ item.nodes = nodes
  | .text raw, text, nodes => by
    simp [Item.build, Item.chars, Item.nodes, Item.WellFormed.text]
  | .literal body, text, nodes => by
    simp [Item.build, Item.chars, Item.nodes, Item.WellFormed.literal]
  | .element tag items closing, text, nodes => by
    rw [Item.build, Item.wellFormed_element_iff, bind_eq_ok_iff]
    constructor
    · rintro ⟨attributes, htabulate, h⟩
      obtain ⟨⟨chars, children⟩, hbuild, h⟩ := bind_eq_ok_iff.1 h
      obtain ⟨⟨⟩, hcheck, h⟩ := bind_eq_ok_iff.1 h
      obtain ⟨hnodup, -, rfl⟩ := tabulate_eq_ok_iff.1 htabulate
      obtain ⟨hitems, rfl, rfl⟩ := buildAll_eq_ok_iff.1 hbuild
      cases h
      exact ⟨⟨hnodup, hitems, checkClosing_eq_ok_iff.1 hcheck⟩, rfl, by rw [Item.nodes]; rfl⟩
    · rintro ⟨⟨hnodup, hitems, hclosing⟩, rfl, rfl⟩
      refine ⟨_, tabulate_eq_ok_iff.2 ⟨hnodup, fun _ _ h => (nomatch h), rfl⟩, ?_⟩
      refine bind_eq_ok_iff.2 ⟨_, buildAll_eq_ok_iff.2 ⟨hitems, rfl, rfl⟩, ?_⟩
      refine bind_eq_ok_iff.2 ⟨(), checkClosing_eq_ok_iff.2 hclosing, ?_⟩
      rw [Item.nodes]
      rfl

theorem buildAll_eq_ok_iff : ∀ {items : List Item} {text : List Char} {nodes : List Node},
    buildAll items = .ok (text, nodes) ↔
      (∀ item ∈ items, item.WellFormed) ∧ items.flatMap Item.chars = text ∧ allNodes items = nodes
  | [], text, nodes => by simp [buildAll, allNodes]
  | item :: items, text, nodes => by
    rw [buildAll, bind_eq_ok_iff, List.forall_mem_cons, List.flatMap_cons, allNodes]
    constructor
    · rintro ⟨⟨first, node⟩, hitem, h⟩
      obtain ⟨⟨chars, children⟩, hbuild, h⟩ := bind_eq_ok_iff.1 h
      obtain ⟨hwf, rfl, rfl⟩ := Item.build_eq_ok_iff.1 hitem
      obtain ⟨hitems, rfl, rfl⟩ := buildAll_eq_ok_iff.1 hbuild
      cases h
      exact ⟨⟨hwf, hitems⟩, rfl, rfl⟩
    · rintro ⟨⟨hwf, hitems⟩, rfl, rfl⟩
      refine ⟨_, Item.build_eq_ok_iff.2 ⟨hwf, rfl, rfl⟩, ?_⟩
      exact bind_eq_ok_iff.2 ⟨_, buildAll_eq_ok_iff.2 ⟨hitems, rfl, rfl⟩, rfl⟩

end

/-- The root of a document stands for one node. -/
theorem Derives.exists_node {source : List Char} {root : Item} (h : Derives source root) :
    ∃ node, root.nodes = [node] := by
  obtain ⟨-, -, -, -, helement, -⟩ := h
  cases helement with
  | closed => exact ⟨_, Item.nodes.eq_3 ..⟩
  | opened => exact ⟨_, Item.nodes.eq_3 ..⟩

end Markup

namespace Source

open Markup

variable {source : List Char} {root : Item} {node : Node}

/-- A well-formed document is read as the node that its root stands for. -/
theorem ofMarkup_of_wellFormed (h : Derives source root) (hwf : root.WellFormed)
    (hnode : root.nodes = [node]) : ofMarkup source = .ok node := by
  have hbuild : root.build = .ok (root.chars, [node]) := Item.build_eq_ok_iff.2 ⟨hwf, rfl, hnode⟩
  simp only [ofMarkup, document_eq_ok_iff.2 h, hbuild, List.headD_cons]

/-- A document that is not well-formed is a violation. -/
theorem ofMarkup_of_not_wellFormed (h : Derives source root) (hwf : ¬ root.WellFormed) :
    ∃ v, ofMarkup source = .error (.violation v) := by
  cases hbuild : root.build with
  | error v => exact ⟨v, by simp only [ofMarkup, document_eq_ok_iff.2 h, hbuild]⟩
  | ok p => exact absurd (Item.build_eq_ok_iff.1 hbuild).1 hwf

/-- What is no document gets the reader stuck. -/
theorem ofMarkup_of_not_derives (h : ¬ ∃ root, Derives source root) :
    ∃ stuck, ofMarkup source = .error (.stuck stuck) := by
  rw [ofMarkup]
  cases hdocument : document source with
  | error stuck => exact ⟨stuck, rfl⟩
  | ok root => exact absurd ⟨root, document_eq_ok_iff.1 hdocument⟩ h

/-- The three answers that reading can give, each with the reason for it. -/
theorem ofMarkup_cases (source : List Char) :
    (∃ node, ofMarkup source = .ok node ∧
      ∃ root, Derives source root ∧ root.WellFormed ∧ root.nodes = [node]) ∨
    (∃ v, ofMarkup source = .error (.violation v) ∧ ∃ root, Derives source root ∧ ¬ root.WellFormed) ∨
    (∃ stuck, ofMarkup source = .error (.stuck stuck) ∧ ¬ ∃ root, Derives source root) := by
  by_cases hroot : ∃ root, Derives source root
  · obtain ⟨root, h⟩ := hroot
    by_cases hwf : root.WellFormed
    · obtain ⟨node, hnode⟩ := h.exists_node
      exact .inl ⟨node, ofMarkup_of_wellFormed h hwf hnode, root, h, hwf, hnode⟩
    · obtain ⟨v, hv⟩ := ofMarkup_of_not_wellFormed h hwf
      exact .inr (.inl ⟨v, hv, root, h, hwf⟩)
  · obtain ⟨stuck, hstuck⟩ := ofMarkup_of_not_derives hroot
    exact .inr (.inr ⟨stuck, hstuck, hroot⟩)

/-- A source is a tree exactly if it is a well-formed document, and then it is the tree that the
    document stands for; it is a violation exactly if it is a document that is not well-formed, and
    reading gets stuck exactly if it is no document. -/
theorem ofMarkup_accepts (source : List Char) :
    (∀ node, ofMarkup source = .ok node ↔
      ∃ root, Derives source root ∧ root.WellFormed ∧ root.nodes = [node]) ∧
    ((∃ v, ofMarkup source = .error (.violation v)) ↔
      ∃ root, Derives source root ∧ ¬ root.WellFormed) ∧
    ((∃ stuck, ofMarkup source = .error (.stuck stuck)) ↔ ¬ ∃ root, Derives source root) := by
  refine ⟨fun node => ⟨fun h => ?_, fun ⟨_, hroot, hwf, hnode⟩ => ?_⟩, ⟨fun ⟨v, h⟩ => ?_, ?_⟩,
    ⟨fun ⟨stuck, h⟩ => ?_, ofMarkup_of_not_derives⟩⟩
  · rcases ofMarkup_cases source with ⟨_, h', hroot⟩ | ⟨_, h', -⟩ | ⟨_, h', -⟩ <;>
      cases h.symm.trans h'
    exact hroot
  · exact ofMarkup_of_wellFormed hroot hwf hnode
  · rcases ofMarkup_cases source with ⟨_, h', -⟩ | ⟨_, h', hroot⟩ | ⟨_, h', -⟩ <;>
      cases h.symm.trans h'
    exact hroot
  · rintro ⟨root, hroot, hwf⟩
    exact ofMarkup_of_not_wellFormed hroot hwf
  · rcases ofMarkup_cases source with ⟨_, h', -⟩ | ⟨_, h', -⟩ | ⟨_, h', hroot⟩ <;>
      cases h.symm.trans h'
    exact hroot

end Source

end HandlerScript
