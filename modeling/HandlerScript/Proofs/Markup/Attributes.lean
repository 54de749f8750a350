import HandlerScript.Proofs.Markup.RoundTrip
import HandlerScript.Proofs.Node.Lookup
import HandlerScript.Proofs.Node.Within

/-! Look-ups in trees that were read from markup.

    Reading refuses an element that repeats an attribute name, but compares the names by exact
    spelling, while look-ups ignore the case of letters. So an element may carry `Var` and `VAR`, and
    looking up `var` on its node has two candidates, of which a table does not say the first. This is
    the only way to get there: the nodes of a tree stand one by one for the start tags of the source,
    and where no start tag writes two names with the same letters, every look-up has one candidate at
    most and its answer does not depend on any order. -/

namespace HandlerScript

/-! ### Start tags and nodes -/

namespace Markup

/-- The attributes of the node that a start tag stands for. -/
def Tag.table (tag : Tag) : Table String := Table.ofList (tag.attributes.map Attribute.entry)

/-- The names of attributes as a start tag writes them. -/
def Tag.writtenNames (tag : Tag) : List String :=
  (tag.attributes.map (·.name)).map String.ofList

mutual

/-- The start tags of an item in the order of the source. -/
def Item.tags : Item → List Tag
  | .text _ => []
  | .literal _ => []
  | .element tag items _ => tag :: allTags items

def allTags : List Item → List Tag
  | [] => []
  | item :: items => item.tags ++ allTags items

end

mutual

/-- The nodes of an item stand for its start tags, one by one. -/
theorem Item.map_preorder_nodes : ∀ item : Item,
    (Node.preorderAll item.nodes).map Node.attributes = item.tags.map Tag.table
  | .text raw => by simp [Item.nodes, Item.tags, Node.preorderAll]
  | .literal body => by simp [Item.nodes, Item.tags, Node.preorderAll]
  | .element tag items closing => by
    have ih := map_preorder_allNodes items
    rw [Item.nodes, Item.tags, Node.preorderAll, Node.preorder_eq, Node.preorderAll]
    simp [ih, Tag.table]

theorem map_preorder_allNodes : ∀ items : List Item,
    (Node.preorderAll (allNodes items)).map Node.attributes = (allTags items).map Tag.table
  | [] => by simp [allNodes, allTags, Node.preorderAll]
  | item :: items => by
    have hfirst := item.map_preorder_nodes
    have hmore := map_preorder_allNodes items
    rw [Node.preorderAll_eq] at hfirst hmore ⊢
    rw [allNodes, allTags, List.flatMap_append, List.map_append, hfirst, hmore, List.map_append]

end

mutual

theorem Item.WellFormed.nodup_names : ∀ {item : Item}, item.WellFormed →
    ∀ tag ∈ item.tags, (tag.attributes.map (·.name)).Nodup
  | .text _, _, tag, htag => by simp [Item.tags] at htag
  | .literal _, _, tag, htag => by simp [Item.tags] at htag
  | .element _ items _, h, tag, htag => by
    obtain ⟨hnodup, hitems, -⟩ := Item.wellFormed_element_iff.1 h
    rw [Item.tags, List.mem_cons] at htag
    rcases htag with rfl | htag
    · exact hnodup
    · exact nodup_names_all hitems tag htag

theorem nodup_names_all : ∀ {items : List Item}, (∀ item ∈ items, item.WellFormed) →
    ∀ tag ∈ allTags items, (tag.attributes.map (·.name)).Nodup
  | [], _, tag, htag => by simp [allTags] at htag
  | item :: items, h, tag, htag => by
    obtain ⟨hitem, hitems⟩ := List.forall_mem_cons.1 h
    rw [allTags, List.mem_append] at htag
    rcases htag with htag | htag
    · exact hitem.nodup_names tag htag
    · exact nodup_names_all hitems tag htag

end

/-- A node has the names that its start tag writes. -/
theorem Tag.names_perm {tag : Tag} (h : (tag.attributes.map (·.name)).Nodup) :
    tag.table.names.Perm tag.writtenNames := by
  have hnames : (tag.attributes.map Attribute.entry).map (·.1) = tag.writtenNames := by
    rw [Tag.writtenNames, List.map_map, List.map_map]
    rfl
  have hnodup : ((tag.attributes.map Attribute.entry).map (·.1)).Nodup := by
    rw [hnames]
    exact h.map fun _ _ heq => String.ofList_injective heq
  have hperm : tag.table.entries.Perm (tag.attributes.map Attribute.entry ++ []) :=
    Table.insertAll_perm hnodup fun _ _ hmem => by cases hmem
  rw [List.append_nil] at hperm
  rw [← hnames]
  exact hperm.map _

/-- The nodes of a well-formed item have the names that its start tags write. -/
theorem Item.WellFormed.distinct_iff {item : Item} {root : Node} (h : item.WellFormed)
    (hroot : item.nodes = [root]) :
    (∀ n : Node, n.Within root → Text.DistinctLetters n.attributes.names) ↔
      ∀ tag ∈ item.tags, Text.DistinctLetters tag.writtenNames := by
  have htables : root.preorder.map Node.attributes = item.tags.map Tag.table := by
    have hnodes := item.map_preorder_nodes
    rw [hroot, Node.preorderAll, Node.preorderAll, List.append_nil] at hnodes
    exact hnodes
  calc (∀ n : Node, n.Within root → Text.DistinctLetters n.attributes.names)
      ↔ ∀ table ∈ root.preorder.map Node.attributes, Text.DistinctLetters table.names := by
        rw [List.forall_mem_map]
        exact forall_congr' fun n => imp_congr_left Node.mem_preorder.symm
    _ ↔ ∀ tag ∈ item.tags, Text.DistinctLetters tag.table.names := by
        rw [htables, List.forall_mem_map]
    _ ↔ ∀ tag ∈ item.tags, Text.DistinctLetters tag.writtenNames := by
        refine forall₂_congr fun tag htag => ?_
        exact Text.DistinctLetters.of_perm (tag.names_perm (h.nodup_names tag htag))

end Markup

/-! ### Look-ups -/

/-- Look-ups on the nodes of a tree that was read from markup. The names of each node are distinct
    ignoring case exactly if each start tag writes them so; then a look-up of any name has one
    candidate at most, and is settled. Of any node, a look-up is settled exactly if the name is there
    as it is spelled or its candidates have one value. -/
theorem parsed_lookups_settled (source : List Char) (root : Node)
    (h : Source.ofMarkup source = .ok root) :
    ∃ item, Markup.Derives source item ∧ item.nodes = [root] ∧
      ((∀ n : Node, n.Within root → Text.DistinctLetters n.attributes.names) ↔
        ∀ tag ∈ item.tags, Text.DistinctLetters tag.writtenNames) ∧
      ∀ n : Node, n.Within root →
        (Text.DistinctLetters n.attributes.names →
          ∀ name, (n.candidates name).length ≤ 1 ∧ n.Settled name) ∧
        ∀ name, n.Settled name ↔ name ∈ n.attributes.names ∨
          ∀ e ∈ n.candidates name, ∀ e' ∈ n.candidates name, e.2 = e'.2 := by
  rcases Source.ofMarkup_cases source with ⟨node, hok, item, hderives, hwf, hnodes⟩ | ⟨v, hv, -⟩ |
    ⟨stuck, hstuck, -⟩
  · obtain rfl : node = root := Except.ok.inj (hok.symm.trans h)
    refine ⟨item, hderives, hnodes, hwf.distinct_iff hnodes, fun n _ => ⟨fun hn name => ?_, ?_⟩⟩
    · exact ⟨Node.length_candidates_le_one hn name, Node.settled_of_distinct hn name⟩
    · exact fun name => Node.settled_iff
  · cases hv.symm.trans h
  · cases hstuck.symm.trans h

/-- A node with two attributes whose names differ in case only. -/
def Node.mixed : Node :=
  { tag := "Set", attributes := Table.ofList [("Var", "a"), ("VAR", "b"), ("value", "1")] }

theorem ofMarkup_mixed :
    Source.ofMarkup "<Set Var=\"a\" VAR=\"b\" value=\"1\"/>".toList = .ok .mixed := by
  have hentries : [("Var", "a"), ("VAR", "b"), ("value", "1")].Perm Node.mixed.attributes.entries := by
    decide +kernel
  have hwritten : Node.mixed.WrittenAs "<Set Var=\"a\" VAR=\"b\" value=\"1\"/>".toList := by
    refine Eq.mp (congrArg Node.mixed.WrittenAs ?_) (Node.WrittenAs.closed hentries)
    decide +kernel
  have hwritable : Node.mixed.Writable :=
    .intro (by decide +kernel) (by decide +kernel) (fun _ h => (nomatch h)) fun _ h => (nomatch h)
  obtain ⟨root, hroot, hwf, hnode⟩ := hwritten.derives hwritable
  exact Source.ofMarkup_of_wellFormed hroot hwf hnode

/-- The node that is read from such a tag: the name that it spells is found in every order, but
    another spelling of the same letters is not settled. -/
theorem parsed_lookups_settled_mixed :
    Source.ofMarkup "<Set Var=\"a\" VAR=\"b\" value=\"1\"/>".toList = .ok .mixed ∧
    Node.mixed.Settled "Var" ∧ Node.mixed.Settled "Value" ∧ ¬ Node.mixed.Settled "var" := by
  obtain ⟨item, -, -, -, hlookups⟩ := parsed_lookups_settled _ _ ofMarkup_mixed
  obtain ⟨-, hsettled⟩ := hlookups .mixed (Node.within_self _)
  refine ⟨ofMarkup_mixed, (hsettled "Var").2 (.inl ?_), (hsettled "Value").2 (.inr ?_),
    fun hvar => ?_⟩
  · decide +kernel
  · decide +kernel
  · exact absurd ((hsettled "var").1 hvar) (by decide +kernel)

/-- Not every tree that is read from markup has names that are distinct ignoring case. -/
theorem parsed_names_not_distinct :
    ¬ ∀ source root, Source.ofMarkup source = .ok root → ∀ n : Node, n.Within root →
      Text.DistinctLetters n.attributes.names ∧ ∀ name, n.Settled name := by
  intro h
  have hmixed := (h _ _ ofMarkup_mixed .mixed (Node.within_self _)).1
  exact absurd hmixed (by decide +kernel)

end HandlerScript
