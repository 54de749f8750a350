import HandlerScript.Table
import Mathlib.Data.List.Dedup

/-! Tables as maps and as sets of entries.

    After a value is entered its name has that value, and every other name has what it had. Entering a
    name that is not there yet adds one entry and disturbs no other, so entering the entries of a table
    into the empty one, in any order, gives the table back. Two tables that answer alike are equal, so
    entering the same pairs twice is entering them once. -/

namespace HandlerScript.Table

variable {α : Type} {t : Table α} {name : String} {value : α}

theorem ext {t t' : Table α} (h : t.entries = t'.entries) : t = t' := by
  cases t
  cases t'
  cases h
  rfl

theorem mem_of_lookup {es : List (String × α)} (h : es.lookup name = some value) :
    (name, value) ∈ es := by
  obtain ⟨l₁, l₂, hl, -⟩ := List.lookup_eq_some_iff.1 h
  rw [hl]
  simp

theorem mem_of_get? (h : t.get? name = some value) : (name, value) ∈ t.entries :=
  mem_of_lookup h

theorem isSome_lookup_iff {es : List (String × α)} :
    (es.lookup name).isSome = true ↔ name ∈ es.map (·.1) := by
  rw [List.lookup_isSome_iff, List.mem_map]
  constructor
  · rintro ⟨p, hp, heq⟩
    exact ⟨p, hp, (beq_iff_eq.1 heq).symm⟩
  · rintro ⟨p, hp, heq⟩
    exact ⟨p, hp, beq_iff_eq.2 heq.symm⟩

theorem contains_iff : t.contains name = true ↔ name ∈ t.names :=
  isSome_lookup_iff

theorem lookup_cons_eq_ite (x : String) (e : String × α) (es : List (String × α)) :
    (e :: es).lookup x = if x = e.1 then some e.2 else es.lookup x := by
  rw [List.lookup_cons]
  by_cases hx : x = e.1
  · rw [if_pos hx, beq_iff_eq.2 hx]
  · rw [if_neg hx, beq_eq_false_iff_ne.2 hx]

theorem lookup_place (x : String) : ∀ es : List (String × α),
    (place name value es).lookup x = if x = name then some value else es.lookup x
  | [] => lookup_cons_eq_ite x (name, value) []
  | e :: es => by
    unfold place
    split
    · exact lookup_cons_eq_ite x (name, value) (e :: es)
    · split
      · rename_i heq
        simp only [lookup_cons_eq_ite, ← heq]
        split <;> rfl
      · rename_i hne
        simp only [lookup_cons_eq_ite, lookup_place x es]
        by_cases hx : x = e.1
        · simp [hx, Ne.symm hne]
        · simp [hx]

/-- A name has the value entered last under it. -/
theorem get?_insert (t : Table α) (name : String) (value : α) (x : String) :
    (t.insert name value).get? x = if x = name then some value else t.get? x :=
  lookup_place x t.entries

theorem contains_insert {x : String} :
    (t.insert name value).contains x = true ↔ x = name ∨ t.contains x = true := by
  rw [contains, contains, get?_insert]
  by_cases hx : x = name <;> simp [hx]

/-- Of the pairs that are entered the last one of a name counts. -/
theorem get?_insertAll (x : String) : ∀ (pairs : List (String × α)) (t : Table α),
    (t.insertAll pairs).get? x = (pairs.reverse.lookup x).or (t.get? x)
  | [], _ => rfl
  | p :: pairs, t => by
    have hinsert : t.insertAll (p :: pairs) = (t.insert p.1 p.2).insertAll pairs := rfl
    rw [hinsert, get?_insertAll x pairs, get?_insert, List.reverse_cons, List.lookup_append,
      lookup_cons_eq_ite, List.lookup_nil, Option.or_assoc]
    split <;> rfl

theorem lookup_map {β : Type} (key : β → String) (val : β → α) (x : String) (bs : List β) :
    (bs.map fun b => (key b, val b)).lookup x = (bs.find? (key · == x)).map val := by
  induction bs with
  | nil => rfl
  | cons b bs ih =>
    rw [List.map_cons, lookup_cons_eq_ite, List.find?_cons]
    by_cases hx : x = key b
    · rw [if_pos hx, beq_iff_eq.2 hx.symm]
      rfl
    · rw [if_neg hx, beq_eq_false_iff_ne.2 (Ne.symm hx)]
      exact ih

/-- Of the things that are entered under their names the last one of a name counts. -/
theorem get?_insertAll_map {β : Type} (key : β → String) (val : β → α) (bs : List β) (t : Table α)
    (x : String) : (t.insertAll (bs.map fun b => (key b, val b))).get? x =
      ((bs.filter (key · == x)).getLast?.map val).or (t.get? x) := by
  rw [get?_insertAll, ← List.map_reverse, lookup_map, List.getLast?_filter]

/-- What is found after entering pairs is one of them or was there before. -/
theorem mem_or_get?_of_insertAll {pairs : List (String × α)}
    (h : (t.insertAll pairs).get? name = some value) :
    (name, value) ∈ pairs ∨ t.get? name = some value := by
  rw [get?_insertAll, Option.or_eq_some_iff] at h
  rcases h with h | ⟨-, h⟩
  · exact .inl (List.mem_reverse.1 (mem_of_lookup h))
  · exact .inr h

/-- Placing an entry of a new name adds it to the others. -/
theorem place_perm : ∀ {es : List (String × α)}, name ∉ es.map (·.1) →
    (place name value es).Perm ((name, value) :: es)
  | [], _ => .refl _
  | e :: es, h => by
    have he : name ≠ e.1 := fun he => h (he ▸ List.mem_cons_self)
    have hes : name ∉ es.map (·.1) := fun hes => h (List.mem_cons_of_mem _ hes)
    rw [place, if_neg he]
    split
    · exact .refl _
    · exact ((place_perm hes).cons e).trans (.swap (name, value) e es)

theorem insert_perm (h : name ∉ t.names) :
    (t.insert name value).entries.Perm ((name, value) :: t.entries) :=
  place_perm h

/-- The names after an entry of a new name. -/
theorem mem_names_insert (h : name ∉ t.names) {x : String} :
    x ∈ (t.insert name value).names ↔ x = name ∨ x ∈ t.names := by
  rw [names, ((insert_perm h).map _).mem_iff, List.map_cons, List.mem_cons, names]

/-- Entering pairs of new and distinct names adds them to the entries. -/
theorem insertAll_perm : ∀ {pairs : List (String × α)} {t : Table α},
    (pairs.map (·.1)).Nodup → (∀ x ∈ pairs.map (·.1), x ∉ t.names) →
    (t.insertAll pairs).entries.Perm (pairs ++ t.entries)
  | [], _, _, _ => .refl _
  | p :: pairs, t, hnodup, hnew => by
    obtain ⟨hp, hpairs⟩ := List.nodup_cons.1 hnodup
    have hpt : p.1 ∉ t.names := hnew p.1 List.mem_cons_self
    have hrest : ∀ x ∈ pairs.map (·.1), x ∉ (t.insert p.1 p.2).names := by
      intro x hx hmem
      rcases (mem_names_insert hpt).1 hmem with rfl | hmem
      · exact hp hx
      · exact hnew x (List.mem_cons_of_mem _ hx) hmem
    have htail := insertAll_perm hpairs hrest
    exact (htail.trans ((insert_perm hpt).append_left pairs)).trans List.perm_middle

theorem names_nodup (t : Table α) : t.names.Nodup := by
  rw [names, List.nodup_iff_pairwise_ne, List.pairwise_map]
  refine t.increasing.imp ?_
  intro a b hlt heq
  rw [heq] at hlt
  exact String.lt_irrefl _ hlt

/-- Two tables with the same entries are equal, since both list them in increasing order. -/
theorem ext_of_perm {t t' : Table α} (h : t.entries.Perm t'.entries) : t = t' := by
  refine ext (h.eq_of_pairwise (fun a b _ _ hab hba => ?_) t.increasing t'.increasing)
  exact absurd (String.lt_trans hab hba) (String.lt_irrefl _)

/-- A table is made of its entries, whatever order they are entered in. -/
theorem ofList_of_perm {pairs : List (String × α)} (h : pairs.Perm t.entries) : ofList pairs = t := by
  have hnodup : (pairs.map (·.1)).Nodup := (h.map _).nodup_iff.2 t.names_nodup
  have hperm : (ofList pairs).entries.Perm (pairs ++ []) :=
    insertAll_perm hnodup fun _ _ hmem => by cases hmem
  rw [List.append_nil] at hperm
  exact ext_of_perm (hperm.trans h)

/-! ### Look-ups decide a table -/

theorem get?_of_mem (h : (name, value) ∈ t.entries) : t.get? name = some value := by
  have hname : t.contains name = true := contains_iff.2 (List.mem_map_of_mem h)
  obtain ⟨v, hv⟩ := Option.isSome_iff_exists.1 hname
  have heq := List.inj_on_of_nodup_map t.names_nodup (mem_of_get? hv) h rfl
  cases heq
  exact hv

theorem mem_entries_iff : (name, value) ∈ t.entries ↔ t.get? name = some value :=
  ⟨get?_of_mem, mem_of_get?⟩

/-- Two tables that answer every look-up alike are equal. -/
theorem ext_get? {t t' : Table α} (h : ∀ name, t.get? name = t'.get? name) : t = t' := by
  refine ext_of_perm ((List.perm_ext_iff_of_nodup ?_ ?_).2 fun ⟨name, value⟩ => ?_)
  · exact List.Nodup.of_map _ t.names_nodup
  · exact List.Nodup.of_map _ t'.names_nodup
  · rw [mem_entries_iff, mem_entries_iff, h name]

/-- Entering the same pairs again changes nothing. -/
theorem insertAll_insertAll_self (t : Table α) (pairs : List (String × α)) :
    (t.insertAll pairs).insertAll pairs = t.insertAll pairs := by
  refine ext_get? fun name => ?_
  rw [get?_insertAll, get?_insertAll, ← Option.or_assoc, Option.or_self]

/-- The names are in increasing order. -/
theorem names_increasing (t : Table α) : t.names.Pairwise (· < ·) :=
  List.pairwise_map.2 t.increasing

/-- The names after pairs were entered. -/
theorem mem_names_insertAll {pairs : List (String × α)} {name : String} :
    name ∈ (t.insertAll pairs).names ↔ name ∈ pairs.map (·.1) ∨ name ∈ t.names := by
  rw [← contains_iff, ← contains_iff, contains, contains, get?_insertAll, Option.isSome_or,
    Bool.or_eq_true, isSome_lookup_iff, List.map_reverse, List.mem_reverse]

/-- A table has as many entries as there are different names in a list of its names. -/
theorem size_eq_length_dedup {names : List String} (h : ∀ name, name ∈ t.names ↔ name ∈ names) :
    t.size = names.dedup.length := by
  have hperm : t.names.Perm names.dedup :=
    (List.perm_ext_iff_of_nodup t.names_nodup (List.nodup_dedup names)).2 fun name => by
      rw [h name, List.mem_dedup]
  rw [← hperm.length_eq, Table.names, List.length_map, Table.size]

end HandlerScript.Table
