/-! Tables: finite maps from names to values.

    A table is the list of its entries in strictly increasing order of their names, so two tables
    that answer every look-up alike are equal, and listing a table needs no sorting. Names are
    compared exactly, by code point. -/

namespace HandlerScript

/-- Entries in strictly increasing order of their names. -/
def Increasing {α : Type} (entries : List (String × α)) : Prop :=
  entries.Pairwise fun a b => a.1 < b.1

/-- A finite map from names to values. -/
structure Table (α : Type) where
  entries : List (String × α)
  increasing : Increasing entries

namespace Table

variable {α : Type}

/-- The table without entries. -/
def empty : Table α := ⟨[], List.Pairwise.nil⟩

instance : EmptyCollection (Table α) := ⟨empty⟩
instance : Inhabited (Table α) := ⟨empty⟩

/-- Places an entry among increasing entries, over an entry of the same name if there is one. -/
def place (name : String) (value : α) : List (String × α) → List (String × α)
  | [] => [(name, value)]
  | e :: es =>
    if name < e.1 then (name, value) :: e :: es
    else if name = e.1 then (name, value) :: es
    else e :: place name value es

theorem mem_place {name : String} {value : α} {x : String × α} :
    ∀ {es : List (String × α)}, x ∈ place name value es → x = (name, value) ∨ x ∈ es
  | [], h => by simpa [place] using h
  | e :: es, h => by
    unfold place at h
    split at h
    · simpa using h
    · split at h
      · rcases List.mem_cons.1 h with h | h
        · exact .inl h
        · exact .inr (List.mem_cons_of_mem _ h)
      · rcases List.mem_cons.1 h with h | h
        · exact .inr (h ▸ List.mem_cons_self)
        · exact (mem_place h).imp id (List.mem_cons_of_mem _)

theorem increasing_place (name : String) (value : α) :
    ∀ {es : List (String × α)}, Increasing es → Increasing (place name value es)
  | [], _ => by simp [place, Increasing]
  | e :: es, h => by
    have ⟨he, hes⟩ := List.pairwise_cons.1 h
    unfold place
    split
    · rename_i hlt
      refine List.pairwise_cons.2 ⟨fun x hx => ?_, h⟩
      rcases List.mem_cons.1 hx with rfl | hx
      · exact hlt
      · exact String.lt_trans hlt (he x hx)
    · rename_i hnlt
      split
      · rename_i heq
        subst heq
        exact List.pairwise_cons.2 ⟨he, hes⟩
      · rename_i hne
        refine List.pairwise_cons.2 ⟨fun x hx => ?_, increasing_place name value hes⟩
        rcases mem_place hx with rfl | hx
        · exact Std.lt_of_le_of_ne (String.not_lt.1 hnlt) (Ne.symm hne)
        · exact he x hx

/-- The table with `value` under `name`, in place of what stood there. -/
def insert (t : Table α) (name : String) (value : α) : Table α :=
  ⟨place name value t.entries, increasing_place name value t.increasing⟩

/-- The value under a name. -/
def get? (t : Table α) (name : String) : Option α :=
  t.entries.lookup name

/-- Whether a name has a value. -/
def contains (t : Table α) (name : String) : Bool :=
  (t.get? name).isSome

/-- The names, in increasing order. -/
def names (t : Table α) : List String :=
  t.entries.map (·.1)

/-- The number of names. -/
def size (t : Table α) : Nat :=
  t.entries.length

def isEmpty (t : Table α) : Bool :=
  t.entries.isEmpty

/-- Enters pairs from left to right, so that the last value of a name stays. -/
def insertAll (t : Table α) (pairs : List (String × α)) : Table α :=
  pairs.foldl (fun t p => t.insert p.1 p.2) t

def ofList (pairs : List (String × α)) : Table α :=
  empty.insertAll pairs

end Table

end HandlerScript
