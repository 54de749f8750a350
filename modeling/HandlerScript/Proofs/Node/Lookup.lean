import HandlerScript.Node.Basic
import HandlerScript.Proofs.Table
import Mathlib.Data.List.Nodup

/-! Looking attributes up whatever the case of their letters.

    A look-up takes the entry that is spelled exactly as asked for, and else the first one that is
    spelled so up to the case of letters. A table has no order of its own to list its entries in, so
    the second step means something only if it comes to the same in every order. Names that are
    distinct ignoring case make sure of that: a look-up then finds the one entry with the letters that
    were asked for, and two tables whose entries are the same up to the case of their names answer
    alike. In general a look-up is settled exactly if the name is there as it is spelled, or all
    entries with its letters have one value. -/

namespace HandlerScript

/-! ### Names that differ in more than case -/

namespace Text

/-- No two of the names are equal up to the case of letters. -/
def DistinctLetters (names : List String) : Prop := (names.map lower).Nodup

instance (names : List String) : Decidable (DistinctLetters names) :=
  inferInstanceAs (Decidable (List.Nodup _))

theorem DistinctLetters.of_perm {names names' : List String} (h : names.Perm names') :
    DistinctLetters names ↔ DistinctLetters names' :=
  (h.map lower).nodup_iff

theorem sameLetters_refl (s : String) : sameLetters s s = true := sameLetters_iff.2 rfl

theorem lower_append (a b : String) : lower (a ++ b) = lower a ++ lower b := by
  simp [lower]

end Text

/-- An entry with its name in small letters. -/
def loweredEntry (e : String × String) : String × String := (Text.lower e.1, e.2)

theorem distinctLetters_iff {es : List (String × String)} :
    Text.DistinctLetters (es.map (·.1)) ↔ ((es.map loweredEntry).map (·.1)).Nodup := by
  rw [Text.DistinctLetters, List.map_map, List.map_map]
  rfl

/-! ### Look-ups in a list of entries -/

/-- The value that a look-up finds in entries listed in some order. -/
def lookupIn (es : List (String × String)) (name : String) : Option String :=
  match es.lookup name with
  | some value => some value
  | none => (es.find? fun e => Text.sameLetters e.1 name).map (·.2)

theorem Node.attr?_eq_lookupIn (n : Node) (name : String) :
    n.attr? name = lookupIn n.attributes.entries name := rfl

section Lookups

variable {es es' : List (String × String)} {name value : String}

theorem not_mem_of_lookup (h : es.lookup name = none) (value : String) : (name, value) ∉ es := by
  intro hmem
  simpa using List.lookup_eq_none_iff.1 h _ hmem

/-- What a look-up finds has the letters of the name. -/
theorem mem_of_lookupIn (h : lookupIn es name = some value) :
    ∃ e ∈ es, Text.sameLetters e.1 name = true ∧ e.2 = value := by
  unfold lookupIn at h
  split at h
  · rename_i v hv
    cases h
    exact ⟨_, Table.mem_of_lookup hv, Text.sameLetters_refl name, rfl⟩
  · obtain ⟨e, he, rfl⟩ := Option.map_eq_some_iff.1 h
    have hname := List.find?_some he
    exact ⟨e, List.mem_of_find?_eq_some he, hname, rfl⟩

/-- A look-up finds something if any entry has the letters of the name. -/
theorem exists_lookupIn {e : String × String} (he : e ∈ es)
    (hname : Text.sameLetters e.1 name = true) : ∃ value, lookupIn es name = some value := by
  unfold lookupIn
  split
  · exact ⟨_, rfl⟩
  · cases hfind : es.find? fun e => Text.sameLetters e.1 name with
    | some e' => exact ⟨e'.2, rfl⟩
    | none => exact absurd hname (List.find?_eq_none.1 hfind e he)

/-- Entries with the letters of one name are one entry if the names are distinct ignoring case. -/
theorem eq_of_distinctLetters (h : Text.DistinctLetters (es.map (·.1))) {e e' : String × String}
    (he : e ∈ es) (he' : e' ∈ es) (hname : Text.sameLetters e.1 name = true)
    (hname' : Text.sameLetters e'.1 name = true) : e = e' := by
  rw [Text.DistinctLetters, List.map_map] at h
  refine List.inj_on_of_nodup_map h he he' ?_
  exact (Text.sameLetters_iff.1 hname).trans (Text.sameLetters_iff.1 hname').symm

/-- With names that are distinct ignoring case, a look-up finds the entry with the letters of the
    name. -/
theorem lookupIn_eq_some_iff (h : Text.DistinctLetters (es.map (·.1))) :
    lookupIn es name = some value ↔ (Text.lower name, value) ∈ es.map loweredEntry := by
  rw [List.mem_map]
  constructor
  · intro hfound
    obtain ⟨e, he, hname, rfl⟩ := mem_of_lookupIn hfound
    exact ⟨e, he, by rw [loweredEntry, Text.sameLetters_iff.1 hname]⟩
  · rintro ⟨e, he, heq⟩
    have hname : Text.sameLetters e.1 name = true := Text.sameLetters_iff.2 (congrArg Prod.fst heq)
    obtain ⟨v, hv⟩ := exists_lookupIn he hname
    obtain ⟨e', he', hname', rfl⟩ := mem_of_lookupIn hv
    have hsame : e = e' := eq_of_distinctLetters h he he' hname hname'
    have hvalue : e.2 = value := congrArg Prod.snd heq
    rw [hv, ← hsame, hvalue]

/-- Entries that are the same up to the case of their names are found alike. -/
theorem lookupIn_congr (h : Text.DistinctLetters (es.map (·.1)))
    (hperm : (es.map loweredEntry).Perm (es'.map loweredEntry)) :
    lookupIn es' name = lookupIn es name := by
  have h' : Text.DistinctLetters (es'.map (·.1)) := by
    rw [distinctLetters_iff] at h ⊢
    exact (hperm.map _).nodup_iff.1 h
  refine Option.ext fun value => ?_
  rw [lookupIn_eq_some_iff h, lookupIn_eq_some_iff h', hperm.mem_iff]

end Lookups

/-! ### Look-ups that do not depend on an order -/

namespace Node

/-- The entries that a look-up of a name could take. -/
def candidates (n : Node) (name : String) : List (String × String) :=
  n.attributes.entries.filter fun e => Text.sameLetters e.1 name

/-- The answer to a look-up is the same in whatever order the attributes are listed. -/
def Settled (n : Node) (name : String) : Prop :=
  ∀ es, es.Perm n.attributes.entries → lookupIn es name = n.attr? name

theorem mem_candidates {n : Node} {name : String} {e : String × String} :
    e ∈ n.candidates name ↔ e ∈ n.attributes.entries ∧ Text.sameLetters e.1 name = true :=
  List.mem_filter

/-- Names that are distinct ignoring case leave one candidate at most. -/
theorem length_candidates_le_one {n : Node} (h : Text.DistinctLetters n.attributes.names)
    (name : String) : (n.candidates name).length ≤ 1 := by
  have hnodup : ((n.candidates name).map fun e => Text.lower e.1).Nodup := by
    rw [Text.DistinctLetters, Table.names, List.map_map] at h
    exact h.sublist (List.filter_sublist.map _)
  have hsame : (n.candidates name).map (fun e => Text.lower e.1) =
      List.replicate (n.candidates name).length (Text.lower name) := by
    refine List.eq_replicate_iff.2 ⟨List.length_map _, fun l hl => ?_⟩
    obtain ⟨e, he, rfl⟩ := List.mem_map.1 hl
    exact Text.sameLetters_iff.1 (mem_candidates.1 he).2
  rw [hsame] at hnodup
  exact List.nodup_replicate.1 hnodup

/-- A name that is there as it is spelled is found in every order. -/
theorem settled_of_mem {n : Node} {name : String} (h : name ∈ n.attributes.names) :
    n.Settled name := by
  obtain ⟨⟨x, value⟩, he, hx⟩ := List.mem_map.1 h
  obtain rfl : name = x := hx.symm
  have hlookup : ∀ es : List (String × String), es.Perm n.attributes.entries →
      lookupIn es name = some value := by
    intro es hes
    have hnodup : (es.map (·.1)).Nodup := (hes.map _).nodup_iff.2 n.attributes.names_nodup
    have hmem : (name, value) ∈ es := hes.mem_iff.2 he
    cases hv : es.lookup name with
    | none => exact absurd hmem (not_mem_of_lookup hv value)
    | some v =>
      have hpair : (name, v) = (name, value) :=
        List.inj_on_of_nodup_map hnodup (Table.mem_of_lookup hv) hmem rfl
      rw [lookupIn, hv, (Prod.mk.inj hpair).2]
  intro es hes
  rw [hlookup es hes, attr?_eq_lookupIn, hlookup _ (.refl _)]

/-- Candidates of one value are as good as one candidate. -/
theorem settled_of_one_value {n : Node} {name : String}
    (h : ∀ e ∈ n.candidates name, ∀ e' ∈ n.candidates name, e.2 = e'.2) : n.Settled name := by
  intro es hes
  rw [attr?_eq_lookupIn]
  cases hv : lookupIn es name with
  | none =>
    cases hv' : lookupIn n.attributes.entries name with
    | none => rfl
    | some v' =>
      obtain ⟨e, he, hname, -⟩ := mem_of_lookupIn hv'
      obtain ⟨v, hfound⟩ := exists_lookupIn (hes.mem_iff.2 he) hname
      rw [hv] at hfound
      cases hfound
  | some v =>
    obtain ⟨e, he, hname, rfl⟩ := mem_of_lookupIn hv
    obtain ⟨v', hv'⟩ := exists_lookupIn (hes.mem_iff.1 he) hname
    obtain ⟨e', he', hname', rfl⟩ := mem_of_lookupIn hv'
    rw [hv', h e (mem_candidates.2 ⟨hes.mem_iff.1 he, hname⟩) e' (mem_candidates.2 ⟨he', hname'⟩)]

/-- Names that are distinct ignoring case settle every look-up. -/
theorem settled_of_distinct {n : Node} (h : Text.DistinctLetters n.attributes.names)
    (name : String) : n.Settled name :=
  fun _ hes => lookupIn_congr h (hes.symm.map loweredEntry)

/-- A name that is not there as it is spelled has the value of the candidate that is listed first. -/
theorem lookupIn_front {n : Node} {name : String} (h : name ∉ n.attributes.names)
    {e : String × String} (he : e ∈ n.candidates name) :
    ∃ es, es.Perm n.attributes.entries ∧ lookupIn es name = some e.2 := by
  obtain ⟨hmem, hname⟩ := mem_candidates.1 he
  have hperm : (e :: n.attributes.entries.erase e).Perm n.attributes.entries :=
    (List.perm_cons_erase hmem).symm
  refine ⟨_, hperm, ?_⟩
  have hnone : (e :: n.attributes.entries.erase e).lookup name = none := by
    refine List.lookup_eq_none_iff.2 fun p hp => ?_
    have hne : name ≠ p.1 := fun heq => h (heq ▸ List.mem_map_of_mem (hperm.mem_iff.1 hp))
    simpa using hne
  rw [lookupIn, hnone]
  simp [hname]

/-- A look-up is settled exactly if the name is there as it is spelled or its candidates have one
    value. -/
theorem settled_iff {n : Node} {name : String} : n.Settled name ↔ name ∈ n.attributes.names ∨
    ∀ e ∈ n.candidates name, ∀ e' ∈ n.candidates name, e.2 = e'.2 := by
  constructor
  · intro h
    by_cases hname : name ∈ n.attributes.names
    · exact .inl hname
    · refine .inr fun e he e' he' => ?_
      obtain ⟨es, hes, hv⟩ := lookupIn_front hname he
      obtain ⟨es', hes', hv'⟩ := lookupIn_front hname he'
      have heq : some e.2 = some e'.2 := by rw [← hv, ← hv', h es hes, h es' hes']
      exact Option.some.inj heq
  · rintro (h | h)
    · exact settled_of_mem h
    · exact settled_of_one_value h

end Node

end HandlerScript
