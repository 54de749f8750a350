import HandlerScript.Proofs.Json.Layout
import HandlerScript.Proofs.Node.Within
import HandlerScript.Proofs.Table
import HandlerScript.Source
import Mathlib.Data.List.Forall2

/-! Command trees read back from their JSON form.

    An object has no order among its members, so the JSON form of a node is a relation: the members may
    stand in any order, and so may the attributes. Whatever the order and the blanks between the words,
    the reader collects exactly the members that were written, and those that were left out have their
    default, as long as no more brackets are open at once than the reader admits. -/

namespace HandlerScript

open Json (Value Blanks KeyLaid ItemsLaid MembersLaid)

/-- The members of an object of strings. -/
abbrev Json.texts (pairs : List (String × String)) : List (String × Value) :=
  pairs.map fun e => (e.1, .string e.2)

namespace Node

/-! ### The JSON form -/

/-- The members of the JSON form of a node, given its attributes in some order and the values of its
    children. What is empty is left out. -/
def jsonMembers (n : Node) (pairs : List (String × String)) (vs : List Value) :
    List (String × Value) :=
  ("tag", .string n.tag) ::
    ((if pairs.isEmpty then [] else [("attributes", .object (Json.texts pairs))]) ++
      (n.text.toList.map fun t => ("text", .string t)) ++
      (if vs.isEmpty then [] else [("children", .array vs)]))

/-- The value is a JSON form of the node, with the members and the attributes of every node in some
    order. -/
inductive JsonForm : Node → Value → Prop
  | intro {n : Node} {pairs : List (String × String)} {vs : List Value} {ms : List (String × Value)} :
      pairs.Perm n.attributes.entries → List.Forall₂ JsonForm n.children vs →
      ms.Perm (n.jsonMembers pairs vs) → JsonForm n (.object ms)

theorem toJsonList_eq (ns : List Node) : toJsonList ns = ns.map toJson := by
  induction ns with
  | nil => rfl
  | cons n ns ih => rw [toJsonList, ih, List.map_cons]

/-- The written form has the members and the attributes in the order of their names. -/
theorem jsonForm_toJson (n : Node) : n.JsonForm n.toJson := by
  induction n using induction_children with
  | step n ih =>
    obtain ⟨tag, attributes, text, children⟩ := n
    have hchildren : List.Forall₂ JsonForm children (children.map toJson) :=
      List.forall₂_map_right_iff.2 (List.forall₂_same.2 ih)
    have hswap : ∀ T : String × Value, ∀ A X C : List (String × Value),
        (A ++ C ++ [T] ++ X).Perm (T :: (A ++ X ++ C)) := by
      intro T A X C
      rw [List.append_assoc _ [T], List.singleton_append, List.append_assoc A X C]
      refine List.perm_middle.trans (.cons T ?_)
      rw [List.append_assoc]
      exact List.perm_append_comm.append_left A
    unfold toJson
    rw [toJsonList_eq]
    refine .intro (.refl attributes.entries) hchildren ?_
    rw [jsonMembers, List.isEmpty_map]
    cases text <;> exact hswap _ _ _ _

end Node

/-! ### Reading strings and tables -/

namespace Json

variable {b rest : List Char}

theorem readText_quoted (hb : Blanks b) (s : String) (rest : List Char) :
    readText (b ++ (quoted s ++ rest)) = .ok (s, rest) := by
  rw [readText, quoted_append, skipBlanks_append hb rfl]
  exact string_escaped s rest

theorem readText?_quoted (hb : Blanks b) (s : String) (rest : List Char) :
    readText? (b ++ (quoted s ++ rest)) = .ok (some s, rest) := by
  have hread := readText_quoted blanks_nil s rest
  rw [quoted_append, List.nil_append] at hread
  have hquote : skipBlanks (b ++ '"' :: (s.toList.flatMap escaped ++ '"' :: rest)) = _ :=
    skipBlanks_append hb rfl _
  simp [readText?, quoted_append, hquote, hread, bind, Except.bind, pure, Except.pure]

/-- The entries of an object of strings are entered in their order. -/
theorem readEntries_laid (rest : List Char) {pairs : List (String × String)} :
    ∀ {first : Bool} {cs : List Char} {fuel : Nat} {t : Table String},
      MembersLaid first (texts pairs) cs → cs.length ≤ fuel →
      readEntries fuel first t (cs ++ rest) = .ok (t.insertAll pairs, rest) := by
  induction pairs with
  | nil =>
    rintro first _ (_ | fuel) t ⟨hb⟩ hfuel
    · simp at hfuel
    rw [readEntries, List.append_assoc, List.singleton_append, moreMembers_close first hb]
    rfl
  | cons e pairs ih =>
    rintro first _ fuel t (_ | @⟨_, front, cs, more, _, _, _, hkey, hvalue, hmore⟩) hfuel
    obtain ⟨fuel, rfl, -, hrest⟩ := hkey.exists_fuel hfuel
    obtain ⟨r₁, r₂, b, hb, hopen, hstring, hcolon⟩ := hkey.read (cs ++ (more ++ rest))
    obtain rfl := hvalue.of_string
    rw [readEntries, List.append_assoc, List.append_assoc, hopen]
    simp only [bind, Except.bind, hstring, hcolon, if_true, readText_quoted hb]
    exact ih hmore hrest

/-- An object of strings is read as the table of its entries. -/
theorem readTable_laid {depth : Nat} {pairs : List (String × String)} {t : Table String}
    {cs : List Char} (hpairs : pairs.Perm t.entries) (hb : Blanks b)
    (hlaid : (Value.object (texts pairs)).Laid cs) (hdepth : 1 < depth)
    (rest : List Char) : readTable depth (b ++ (cs ++ rest)) = .ok (t, rest) := by
  obtain ⟨more, rfl, hmembers⟩ := hlaid.of_object
  have htable : Table.insertAll ∅ pairs = t := Table.ofList_of_perm hpairs
  have hopen : readTable depth (b ++ ('{' :: more ++ rest)) =
      readEntries ((more ++ rest).length + 1) true ∅ (more ++ rest) := by
    rw [readTable, List.cons_append, skipBlanks_append hb rfl]
    exact if_neg (Nat.not_le.2 hdepth)
  have hfuel : more.length ≤ (more ++ rest).length + 1 := by
    rw [List.length_append]
    omega
  rw [hopen, readEntries_laid rest hmembers hfuel, htable]

end Json

/-! ### Reading nodes -/

namespace Node

open Json

/-- What has been read of a node once the members of some names are known. -/
def draftOf (n : Node) (keys : List String) : Draft where
  tag := if "tag" ∈ keys then some n.tag else none
  attributes := if "attributes" ∈ keys then some n.attributes else none
  text := if "text" ∈ keys then some n.text else none
  children := if "children" ∈ keys then some n.children else none

theorem nodup_jsonMembers (n : Node) (pairs : List (String × String)) (vs : List Value) :
    ((n.jsonMembers pairs vs).map (·.1)).Nodup := by
  unfold jsonMembers
  cases pairs <;> cases n.text <;> cases vs <;> simp

theorem mem_jsonMembers {n : Node} {pairs : List (String × String)} {vs : List Value}
    {m : String × Value} (h : m ∈ n.jsonMembers pairs vs) :
    m = ("tag", .string n.tag) ∨ m = ("attributes", .object (texts pairs)) ∨
      (∃ t, n.text = some t ∧ m = ("text", .string t)) ∨ m = ("children", .array vs) := by
  rcases List.mem_cons.1 h with h | h
  · exact .inl h
  · rcases List.mem_append.1 h with h | h
    · rcases List.mem_append.1 h with h | h
      · split at h
        · cases h
        · exact .inr (.inl (List.mem_singleton.1 h))
      · obtain ⟨t, ht, rfl⟩ := List.mem_map.1 h
        exact .inr (.inr (.inl ⟨t, Option.mem_toList.1 ht, rfl⟩))
    · split at h
      · cases h
      · exact .inr (.inr (.inr (List.mem_singleton.1 h)))

theorem getD_ite_some {α : Type} {p : Prop} [Decidable p] {a d : α} (h : p ∨ a = d) :
    (if p then some a else none).getD d = a := by
  by_cases hp : p
  · rw [if_pos hp, Option.getD_some]
  · rw [if_neg hp, Option.getD_none, h.resolve_left hp]

/-- The members of the JSON form are all there is to know. -/
theorem complete?_draftOf {n : Node} {pairs : List (String × String)} {vs : List Value}
    {keys : List String} (hpairs : pairs.Perm n.attributes.entries)
    (hchildren : List.Forall₂ JsonForm n.children vs)
    (hkeys : keys.Perm ((n.jsonMembers pairs vs).map (·.1))) :
    (n.draftOf keys).complete? = some n := by
  have htag : "tag" ∈ keys := hkeys.mem_iff.2 List.mem_cons_self
  have hattributes : "attributes" ∈ keys ∨ n.attributes = ∅ := by
    cases pairs with
    | nil => exact .inr (Table.ext (List.nil_perm.1 hpairs))
    | cons e pairs => exact .inl (hkeys.mem_iff.2 (by simp [jsonMembers]))
  have htext : "text" ∈ keys ∨ n.text = none := by
    cases ht : n.text with
    | none => exact .inr rfl
    | some t => exact .inl (hkeys.mem_iff.2 (by simp [jsonMembers, ht]))
  have hlist : "children" ∈ keys ∨ n.children = [] := by
    cases vs with
    | nil => exact .inr (List.forall₂_nil_right_iff.1 hchildren)
    | cons v vs => exact .inl (hkeys.mem_iff.2 (by simp [jsonMembers]))
  simp only [Draft.complete?, draftOf, if_pos htag, Option.map_some, getD_ite_some hattributes,
    getD_ite_some htext, getD_ite_some hlist]
  cases n
  rfl

/-- Every text of every JSON form of the node is read as the node. -/
def ReadsBack (n : Node) : Prop :=
  ∀ {v : Value} {cs : List Char}, n.JsonForm v → v.Laid cs → ∀ {fuel depth : Nat}, cs.length ≤ fuel →
    v.nesting < depth → ∀ rest, readJson fuel depth (cs ++ rest) = .ok (n, rest)

theorem JsonForm.laid_cons {n : Node} {v : Value} {cs : List Char} (h : n.JsonForm v)
    (hlaid : v.Laid cs) : ∃ more, cs = '{' :: more := by
  obtain ⟨-, -, -⟩ := h
  obtain ⟨more, rfl, -⟩ := hlaid.of_object
  exact ⟨more, rfl⟩

theorem readNodes_laid (rest : List Char) {depth : Nat} {ns : List Node} {vs : List Value}
    (hform : List.Forall₂ JsonForm ns vs) : ∀ {first : Bool} {cs : List Char} {fuel : Nat},
      (∀ n ∈ ns, n.ReadsBack) → ItemsLaid first vs cs → cs.length ≤ fuel →
      (∀ v ∈ vs, v.nesting < depth) → readNodes fuel depth first (cs ++ rest) = .ok (ns, rest) := by
  induction hform with
  | nil =>
    rintro first _ (_ | fuel) - ⟨hb⟩ hfuel -
    · simp at hfuel
    rw [readNodes, List.append_assoc, List.singleton_append, moreItems_close first hb]
    rfl
  | @cons n v ns vs hn hns ih =>
    rintro first _ (_ | fuel) hread (_ | @⟨_, s, cs, more, _, _, hs, hv, hmore⟩) hfuel hdepth
    · have := hmore.length_pos
      simp only [List.length_append] at hfuel
      omega
    have hlength : cs.length ≤ fuel ∧ more.length ≤ fuel := by
      have := hmore.length_pos
      obtain ⟨cs', rfl⟩ := hn.laid_cons hv
      simp only [List.length_append, List.length_cons] at hfuel ⊢
      omega
    -- A node begins with a brace, which is neither blank nor the end of the list.
    have hnext : moreItems first (s ++ (cs ++ (more ++ rest))) = .ok (true, cs ++ (more ++ rest)) := by
      obtain ⟨cs', rfl⟩ := hn.laid_cons hv
      exact moreItems_item hs rfl (by decide) _
    obtain ⟨hnode, hnodes⟩ := List.forall_mem_cons.1 hread
    obtain ⟨hnesting, hnestings⟩ := List.forall_mem_cons.1 hdepth
    rw [readNodes, List.append_assoc, List.append_assoc, hnext]
    simp only [bind, Except.bind, if_true, hnode hn hv hlength.1 hnesting,
      ih hnodes hmore hlength.2 hnestings]
    rfl

/-- The list of the children is read as the children. -/
theorem readChildren_laid {b : List Char} (hb : Blanks b) (rest : List Char) {fuel depth : Nat}
    {ns : List Node} {vs : List Value} {cs : List Char} (hform : List.Forall₂ JsonForm ns vs)
    (hread : ∀ n ∈ ns, n.ReadsBack) (hlaid : (Value.array vs).Laid cs) (hfuel : cs.length ≤ fuel)
    (hdepth : (Value.array vs).nesting < depth) :
    readChildren fuel depth (b ++ (cs ++ rest)) = .ok (ns, rest) := by
  obtain ⟨more, rfl, hitems⟩ := hlaid.of_array
  cases fuel with
  | zero => simp at hfuel
  | succ fuel =>
    rw [Value.nesting] at hdepth
    rw [readChildren, List.cons_append, skipBlanks_append hb rfl]
    refine (if_neg (by omega)).trans (readNodes_laid rest hform hread hitems ?_ ?_)
    · exact Nat.le_of_succ_le_succ hfuel
    · intro v hv
      have := nesting_le_of_mem_items hv
      omega

section Members

variable {n : Node} {pairs : List (String × String)} {vs : List Value}
  (hpairs : pairs.Perm n.attributes.entries) (hform : List.Forall₂ JsonForm n.children vs)
  (hread : ∀ c ∈ n.children, c.ReadsBack)

include hpairs hform hread

/-- A member that has not been read is read into the draft. -/
theorem readMembers_member {m : String × Value} {keys : List String} {first : Bool}
    {front cs : List Char} {fuel depth : Nat} (hm : m ∈ n.jsonMembers pairs vs) (hnew : m.1 ∉ keys)
    (hkey : KeyLaid first m.1 front) (hvalue : m.2.Laid cs) (hfuel : cs.length ≤ fuel)
    (hdepth : m.2.nesting < depth) (rest : List Char) :
    readMembers (fuel + 1) depth first (n.draftOf keys) (front ++ (cs ++ rest)) =
      readMembers fuel depth false (n.draftOf (m.1 :: keys)) rest := by
  obtain ⟨r₁, r₂, b, hb, hopen, hstring, hcolon⟩ := hkey.read (cs ++ rest)
  rw [readMembers, hopen]
  simp only [bind, Except.bind, if_true, hstring]
  rcases mem_jsonMembers hm with rfl | rfl | ⟨t, ht, rfl⟩ | rfl
  · obtain rfl := hvalue.of_string
    have hnone : (n.draftOf keys).tag = none := if_neg hnew
    simp only [hnone, hcolon, readText_quoted hb, Option.isSome_none, Bool.false_eq_true, if_false]
    congr 1
    simp [draftOf]
  · have hnone : (n.draftOf keys).attributes = none := if_neg hnew
    have hnested : 1 < depth := by
      rw [Value.nesting] at hdepth
      omega
    simp only [hnone, hcolon, readTable_laid hpairs hb hvalue hnested, Option.isSome_none,
      Bool.false_eq_true, if_false]
    congr 1
    simp [draftOf]
  · obtain rfl := hvalue.of_string
    have hnone : (n.draftOf keys).text = none := if_neg hnew
    simp only [hnone, hcolon, readText?_quoted hb, Option.isSome_none, Bool.false_eq_true, if_false]
    congr 1
    simp [draftOf, ht]
  · have hnone : (n.draftOf keys).children = none := if_neg hnew
    simp only [hnone, hcolon, readChildren_laid hb rest hform hread hvalue hfuel hdepth,
      Option.isSome_none, Bool.false_eq_true, if_false]
    congr 1
    simp [draftOf]

/-- The members that are left complete the node, whatever their order. -/
theorem readMembers_laid (rest : List Char) {depth : Nat} {ms : List (String × Value)} :
    ∀ {done : List (String × Value)} {first : Bool} {cs : List Char} {fuel : Nat},
      (ms ++ done).Perm (n.jsonMembers pairs vs) → MembersLaid first ms cs → cs.length ≤ fuel →
      (∀ m ∈ ms, m.2.nesting < depth) →
      readMembers fuel depth first (n.draftOf (done.map (·.1))) (cs ++ rest) = .ok (n, rest) := by
  -- On the members that are left. With those behind them they are the members of the node, which have
  -- distinct names: so the next one has not been read, and when none is left all have been.
  induction ms with
  | nil =>
    rintro done first _ (_ | fuel) hperm ⟨hb⟩ hfuel -
    · simp at hfuel
    have hcomplete : (n.draftOf (done.map (·.1))).complete? = some n :=
      complete?_draftOf hpairs hform (hperm.map _)
    rw [readMembers, List.append_assoc, List.singleton_append, moreMembers_close first hb]
    simp only [bind, Except.bind, Bool.false_eq_true, if_false, hcomplete]
    rfl
  | cons m ms ih =>
    rintro done first _ fuel hperm (_ | @⟨_, front, cs, more, key, v, _, hkey, hvalue, hmore⟩) hfuel
      hdepth
    obtain ⟨fuel, rfl, hcs, hrest⟩ := hkey.exists_fuel hfuel
    have hm : (key, v) ∈ n.jsonMembers pairs vs := hperm.mem_iff.1 List.mem_cons_self
    have hnodup : (((key, v) :: (ms ++ done)).map (·.1)).Nodup :=
      (hperm.map _).nodup_iff.2 (n.nodup_jsonMembers pairs vs)
    have hnew : key ∉ done.map (·.1) := by
      intro hmem
      rw [List.map_cons, List.map_append, List.nodup_cons] at hnodup
      exact hnodup.1 (List.mem_append_right _ hmem)
    obtain ⟨hnesting, hnestings⟩ := List.forall_mem_cons.1 hdepth
    rw [List.append_assoc, List.append_assoc,
      readMembers_member hpairs hform hread hm hnew hkey hvalue hcs hnesting]
    exact ih (List.perm_middle.trans hperm) hmore hrest hnestings

end Members

/-- Every node is read back from its JSON form. -/
theorem readsBack (n : Node) : n.ReadsBack := by
  induction n using induction_children with
  | step n ih =>
    rintro _ _ ⟨hpairs, hform, hms⟩ hlaid fuel depth hfuel hdepth rest
    rename_i pairs vs ms
    obtain ⟨more, rfl, hmembers⟩ := hlaid.of_object
    cases fuel with
    | zero => simp at hfuel
    | succ fuel =>
      rw [Value.nesting] at hdepth
      have hinside : ∀ m ∈ ms, m.2.nesting < depth - 1 := by
        intro m hm
        have := nesting_le_of_mem_members hm
        omega
      have hall : (ms ++ []).Perm (n.jsonMembers pairs vs) := by rwa [List.append_nil]
      -- The brace of the node itself is one of the brackets that count.
      rw [readJson, List.cons_append]
      refine (if_neg (by omega)).trans ?_
      exact readMembers_laid hpairs hform ih rest hall hmembers (Nat.le_of_succ_le_succ hfuel) hinside

end Node

/-! ### Sources -/

namespace Source

variable {n : Node} {v : Value} {cs : List Char}

theorem ofJson_laid (h : n.JsonForm v) (hlaid : v.Laid cs) (hnesting : v.nesting < Json.depthLimit) :
    ofJson cs = .ok n := by
  have hfuel : cs.length ≤ 2 * cs.length + 2 := by omega
  have hread := n.readsBack h hlaid hfuel hnesting []
  rw [List.append_nil] at hread
  rw [ofJson, Node.ofJson, hread]
  rfl

theorem isJson_laid (h : n.JsonForm v) (hlaid : v.Laid cs) : isJson cs = true := by
  obtain ⟨more, rfl⟩ := h.laid_cons hlaid
  rfl

/-- Every tree is read back from its JSON form, compact or indented and in whatever order its members
    and attributes were written, if no more than 127 brackets are open at once. -/
theorem parse_jsonForm (n : Node) :
    n.JsonForm n.toJson ∧ ∀ v, n.JsonForm v → v.nesting ≤ 127 →
      ∀ cs ∈ [v.compact, v.pretty 0], ofJson cs = .ok n ∧ parse cs = .ok n := by
  refine ⟨n.jsonForm_toJson, fun v hv hnesting cs hcs => ?_⟩
  have hlaid : v.Laid cs := by
    rcases List.mem_pair.1 hcs with rfl | rfl
    · exact v.laid_compact
    · exact v.laid_pretty 0
  have hread := ofJson_laid hv hlaid (Nat.lt_succ_of_le hnesting)
  refine ⟨hread, ?_⟩
  rw [parse, isJson_laid hv hlaid, if_pos rfl, hread]

end Source

/-- A node with quotes, a backslash and control characters in its attributes, and an empty text. -/
def Node.spiky : Node where
  tag := "Say"
  attributes := .ofList [("to", "\"you\" \\o/"), ("as", "é\n\x01")]
  text := some ""
  children := [{ tag := "Wait" }]

/-- Its JSON form with the tag first and the attributes in another order than the table has them. -/
def Node.spikyForm : Value :=
  .object [("tag", .string "Say"),
    ("attributes", .object [("to", .string "\"you\" \\o/"), ("as", .string "é\n\x01")]),
    ("text", .string ""), ("children", .array [.object [("tag", .string "Wait")]])]

theorem Node.spiky_jsonForm : Node.spiky.JsonForm Node.spikyForm := by
  have hentries : [("to", "\"you\" \\o/"), ("as", "é\n\x01")].Perm spiky.attributes.entries := by
    decide +kernel
  have hwait : Node.JsonForm { tag := "Wait" } (.object [("tag", .string "Wait")]) :=
    .intro (.refl []) .nil (.refl _)
  exact .intro hentries (.cons hwait .nil) (.refl _)

theorem Source.parse_jsonForm_spiky :
    Node.spikyForm.nesting ≤ 127 ∧
      Source.parse ("\x7b\"tag\":\"Say\"," ++
        "\"attributes\":\x7b\"to\":\"\\\"you\\\" \\\\o/\",\"as\":\"é\\n\\u0001\"\x7d," ++
        "\"text\":\"\",\"children\":[\x7b\"tag\":\"Wait\"\x7d]\x7d").toList = .ok Node.spiky := by
  have hnesting : Node.spikyForm.nesting ≤ 127 := by decide
  have hread :=
    (Source.parse_jsonForm Node.spiky).2 _ Node.spiky_jsonForm hnesting _ List.mem_cons_self
  refine ⟨hnesting, Eq.trans (congrArg Source.parse ?_) hread.2⟩
  decide +kernel

end HandlerScript
