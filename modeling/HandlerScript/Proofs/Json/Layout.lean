import HandlerScript.Json.Value
import HandlerScript.Proofs.Json.Strings

/-! Layouts of JSON values.

    Blanks may stand between the words of a value in any number. `v.Laid cs` says that `cs` is a text
    of `v` with some blanks; the compact and the pretty text are two of them, so what a reader does on
    every layout it does on both. The lists and objects of a layout are cut where the readers cut them:
    behind the opening bracket, behind each item, and behind the closing bracket. -/

namespace HandlerScript.Json

/-! ### Nesting -/

mutual

/-- How many brackets of a value are open at once, at most. -/
def Value.nesting : Value → Nat
  | .array items => nestingOfItems items + 1
  | .object members => nestingOfMembers members + 1
  | .null | .bool _ | .number _ | .string _ => 0

def nestingOfItems : List Value → Nat
  | [] => 0
  | v :: vs => max v.nesting (nestingOfItems vs)

def nestingOfMembers : List (String × Value) → Nat
  | [] => 0
  | (_, v) :: ms => max v.nesting (nestingOfMembers ms)

end

theorem nesting_le_of_mem_items {v : Value} {items : List Value} (h : v ∈ items) :
    v.nesting ≤ nestingOfItems items := by
  induction items with
  | nil => cases h
  | cons w items ih =>
    rw [nestingOfItems]
    rcases List.mem_cons.1 h with rfl | h
    · exact Nat.le_max_left _ _
    · exact Nat.le_trans (ih h) (Nat.le_max_right _ _)

theorem nesting_le_of_mem_members {m : String × Value} {members : List (String × Value)}
    (h : m ∈ members) : m.2.nesting ≤ nestingOfMembers members := by
  induction members with
  | nil => cases h
  | cons m' members ih =>
    rw [nestingOfMembers]
    rcases List.mem_cons.1 h with rfl | h
    · exact Nat.le_max_left _ _
    · exact Nat.le_trans (ih h) (Nat.le_max_right _ _)

/-- The values directly inside the brackets of a value. -/
def Value.parts : Value → List Value
  | .array items => items
  | .object members => members.map (·.2)
  | .null | .bool _ | .number _ | .string _ => []

theorem Value.sizeOf_lt_of_mem_parts {v w : Value} (h : w ∈ v.parts) : sizeOf w < sizeOf v := by
  cases v with
  | array items =>
    have := List.sizeOf_lt_of_mem (show w ∈ items from h)
    rw [Value.array.sizeOf_spec]
    omega
  | object members =>
    obtain ⟨⟨k, w⟩, hm, rfl⟩ := List.mem_map.1 h
    have := List.sizeOf_lt_of_mem hm
    rw [Prod.mk.sizeOf_spec] at this
    rw [Value.object.sizeOf_spec]
    dsimp only
    omega
  | _ => cases h

/-- A property that passes from the parts of a value to the value holds of every value. -/
theorem Value.induction_parts {P : Value → Prop} (step : ∀ v, (∀ w ∈ v.parts, P w) → P v)
    (v : Value) : P v :=
  step v fun w h =>
    have := Value.sizeOf_lt_of_mem_parts h
    induction_parts step w
termination_by sizeOf v

/-! ### Blanks and separators -/

def Blanks (b : List Char) : Prop := ∀ c ∈ b, isBlank c = true

theorem blanks_nil : Blanks [] := fun _ h => nomatch h

theorem skipBlanks_append {b : List Char} {c : Char} (hb : Blanks b) (hc : isBlank c = false)
    (rest : List Char) : skipBlanks (b ++ c :: rest) = c :: rest := by
  rw [skipBlanks, List.dropWhile_append_of_pos hb, List.dropWhile_cons_of_neg (by simp [hc])]

/-- What stands in front of an item: blanks, and a comma among them unless the item is the first. -/
inductive Separates : Bool → List Char → Prop
  | first {b : List Char} : Blanks b → Separates true b
  | next {b b' : List Char} : Blanks b → Blanks b' → Separates false (b ++ ',' :: b')

section Between

variable {first : Bool} {b s rest : List Char} {c : Char}

theorem moreItems_close (first : Bool) (hb : Blanks b) (rest : List Char) :
    moreItems first (b ++ ']' :: rest) = .ok (false, ']' :: rest) := by
  rw [moreItems, skipBlanks_append hb rfl]
  rfl

theorem moreItems_item (hs : Separates first s) (hc : isBlank c = false) (hne : c ≠ ']')
    (rest : List Char) : moreItems first (s ++ c :: rest) = .ok (true, c :: rest) := by
  cases hs with
  | first hb => simp [moreItems, skipBlanks_append hb hc]
  | next hb hb' =>
    simp [moreItems, skipBlanks_append hb (show isBlank ',' = false from rfl),
      skipBlanks_append hb' hc, hne]

theorem moreMembers_close (first : Bool) (hb : Blanks b) (rest : List Char) :
    moreMembers first (b ++ '}' :: rest) = .ok (false, '}' :: rest) := by
  rw [moreMembers, skipBlanks_append hb rfl]
  rfl

theorem moreMembers_key (hs : Separates first s) (rest : List Char) :
    moreMembers first (s ++ '"' :: rest) = .ok (true, rest) := by
  have hquote : isBlank '"' = false := rfl
  cases hs with
  | first hb => simp [moreMembers, skipBlanks_append hb hquote]
  | next hb hb' =>
    simp [moreMembers, skipBlanks_append hb (show isBlank ',' = false from rfl),
      skipBlanks_append hb' hquote]

end Between

/-- What stands in front of the value of a member: its key, the colon, and blanks around them. -/
inductive KeyLaid (first : Bool) (key : String) : List Char → Prop
  | intro {s b b' : List Char} : Separates first s → Blanks b → Blanks b' →
      KeyLaid first key (s ++ (quoted key ++ (b ++ ':' :: b')))

/-- A key takes some of the fuel, so that as much is left as is left of the text. -/
theorem KeyLaid.exists_fuel {first : Bool} {key : String} {front cs more : List Char} {fuel : Nat}
    (h : KeyLaid first key front) (hfuel : (front ++ (cs ++ more)).length ≤ fuel) :
    ∃ k, fuel = k + 1 ∧ cs.length ≤ k ∧ more.length ≤ k := by
  obtain ⟨-, -, -⟩ := h
  simp only [List.length_append, List.length_cons] at hfuel
  exact ⟨fuel - 1, by omega, by omega, by omega⟩

/-- A key is read up to the blanks in front of its value. -/
theorem KeyLaid.read {first : Bool} {key : String} {front : List Char} (h : KeyLaid first key front)
    (rest : List Char) : ∃ r₁ r₂ b, Blanks b ∧ moreMembers first (front ++ rest) = .ok (true, r₁) ∧
      string r₁ = .ok (key, r₂) ∧ colon r₂ = .ok ((), b ++ rest) := by
  obtain ⟨hs, hb, hb'⟩ := h
  rename_i s b b'
  refine ⟨_, b ++ ':' :: (b' ++ rest), b', hb', ?_, string_escaped key _, ?_⟩
  · simp only [List.append_assoc, quoted_append, List.cons_append]
    exact moreMembers_key hs _
  · rw [colon, skipBlanks_append hb rfl]
    rfl

/-! ### Layouts -/

mutual

/-- A text of a value. -/
inductive Value.Laid : Value → List Char → Prop
  | plain {v : Value} : v.nesting = 0 → Value.Laid v v.compact
  | array {items : List Value} {cs : List Char} : ItemsLaid true items cs →
      Value.Laid (.array items) ('[' :: cs)
  | object {members : List (String × Value)} {cs : List Char} : MembersLaid true members cs →
      Value.Laid (.object members) ('{' :: cs)

/-- A text of the items that are left of a list, up to its closing bracket. -/
inductive ItemsLaid : Bool → List Value → List Char → Prop
  | close {first : Bool} {b : List Char} : Blanks b → ItemsLaid first [] (b ++ [']'])
  | item {first : Bool} {s cs more : List Char} {v : Value} {items : List Value} :
      Separates first s → Value.Laid v cs → ItemsLaid false items more →
      ItemsLaid first (v :: items) (s ++ (cs ++ more))

/-- A text of the members that are left of an object, up to its closing bracket. -/
inductive MembersLaid : Bool → List (String × Value) → List Char → Prop
  | close {first : Bool} {b : List Char} : Blanks b → MembersLaid first [] (b ++ ['}'])
  | member {first : Bool} {front cs more : List Char} {key : String} {v : Value}
      {members : List (String × Value)} :
      KeyLaid first key front → Value.Laid v cs → MembersLaid false members more →
      MembersLaid first ((key, v) :: members) (front ++ (cs ++ more))

end

theorem Value.Laid.of_string {s : String} {cs : List Char} (h : (Value.string s).Laid cs) :
    cs = quoted s := by
  cases h
  rfl

theorem Value.Laid.of_array {items : List Value} {cs : List Char} (h : (Value.array items).Laid cs) :
    ∃ more, cs = '[' :: more ∧ ItemsLaid true items more := by
  cases h with
  | plain h => simp [nesting] at h
  | array h => exact ⟨_, rfl, h⟩

theorem Value.Laid.of_object {members : List (String × Value)} {cs : List Char}
    (h : (Value.object members).Laid cs) :
    ∃ more, cs = '{' :: more ∧ MembersLaid true members more := by
  cases h with
  | plain h => simp [nesting] at h
  | object h => exact ⟨_, rfl, h⟩

theorem ItemsLaid.length_pos {first : Bool} {items : List Value} {cs : List Char}
    (h : ItemsLaid first items cs) : 0 < cs.length := by
  induction items generalizing first cs with
  | nil =>
    obtain ⟨-⟩ := h
    simp
  | cons v items ih =>
    obtain _ | ⟨-, -, hmore⟩ := h
    have := ih hmore
    simp only [List.length_append]
    omega

/-! ### The compact and the pretty text -/

theorem commaJoin_cons (x : List Char) (xs : List (List Char)) :
    commaJoin (x :: xs) = x ++ xs.flatMap (',' :: ·) := by
  induction xs generalizing x with
  | nil => simp [commaJoin]
  | cons y ys ih => rw [commaJoin, ih y, List.flatMap_cons, List.cons_append]; simp

section Joined

variable {b e g : List Char} {lay : Value → List Char}

theorem itemsLaid_join (hb : Blanks b) (he : Blanks e) {items : List Value}
    (h : ∀ v ∈ items, v.Laid (lay v)) :
    ItemsLaid false items ((items.map (b ++ lay ·)).flatMap (',' :: ·) ++ (e ++ [']'])) := by
  induction items with
  | nil => exact .close he
  | cons v items ih =>
    obtain ⟨hv, hitems⟩ := List.forall_mem_cons.1 h
    have hlaid := ItemsLaid.item (.next blanks_nil hb) hv (ih hitems)
    simpa using hlaid

/-- The items of a list, joined by commas, with blanks in front of each and of the closing bracket. -/
theorem laid_array_join (hb : Blanks b) (he : Blanks e) {items : List Value}
    (h : ∀ v ∈ items, v.Laid (lay v)) :
    (Value.array items).Laid ('[' :: (commaJoin (items.map (b ++ lay ·)) ++ (e ++ [']']))) := by
  refine .array ?_
  cases items with
  | nil => exact .close he
  | cons v items =>
    obtain ⟨hv, hitems⟩ := List.forall_mem_cons.1 h
    have hlaid := ItemsLaid.item (.first hb) hv (itemsLaid_join hb he hitems)
    simpa [commaJoin_cons] using hlaid

theorem membersLaid_join (hb : Blanks b) (he : Blanks e) (hg : Blanks g)
    {members : List (String × Value)} (h : ∀ m ∈ members, m.2.Laid (lay m.2)) :
    MembersLaid false members
      ((members.map fun m => b ++ (quoted m.1 ++ ':' :: (g ++ lay m.2))).flatMap (',' :: ·) ++
        (e ++ ['}'])) := by
  induction members with
  | nil => exact .close he
  | cons m members ih =>
    obtain ⟨hm, hmembers⟩ := List.forall_mem_cons.1 h
    have hkey : KeyLaid false m.1 _ := .intro (.next blanks_nil hb) blanks_nil hg
    have hlaid := MembersLaid.member hkey hm (ih hmembers)
    simpa using hlaid

theorem laid_object_join (hb : Blanks b) (he : Blanks e) (hg : Blanks g)
    {members : List (String × Value)} (h : ∀ m ∈ members, m.2.Laid (lay m.2)) :
    (Value.object members).Laid ('{' :: (commaJoin (members.map fun m =>
      b ++ (quoted m.1 ++ ':' :: (g ++ lay m.2))) ++ (e ++ ['}']))) := by
  refine .object ?_
  cases members with
  | nil => exact .close he
  | cons m members =>
    obtain ⟨hm, hmembers⟩ := List.forall_mem_cons.1 h
    have hkey : KeyLaid true m.1 _ := .intro (.first hb) blanks_nil hg
    have hlaid := MembersLaid.member hkey hm (membersLaid_join hb he hg hmembers)
    simpa [commaJoin_cons] using hlaid

end Joined

theorem compactItems_eq (items : List Value) : compactItems items = items.map Value.compact := by
  induction items with
  | nil => rfl
  | cons v items ih => rw [compactItems, ih, List.map_cons]

theorem compactMembers_eq (members : List (String × Value)) :
    compactMembers members = members.map fun m => quoted m.1 ++ ':' :: m.2.compact := by
  induction members with
  | nil => rfl
  | cons m members ih => rw [compactMembers, ih, List.map_cons]

theorem Value.laid_compact (v : Value) : v.Laid v.compact := by
  induction v using Value.induction_parts with
  | step v ih =>
    cases v with
    | array items =>
      have hitems : ∀ v ∈ items, v.Laid v.compact := ih
      have hlaid := laid_array_join blanks_nil blanks_nil hitems
      simpa [Value.compact, compactItems_eq] using hlaid
    | object members =>
      have hlaid := laid_object_join blanks_nil blanks_nil blanks_nil fun m hm =>
        ih m.2 (List.mem_map_of_mem hm)
      simpa [Value.compact, compactMembers_eq] using hlaid
    | _ => exact .plain rfl

theorem prettyItems_eq (depth : Nat) (items : List Value) :
    prettyItems depth items = items.map (Value.pretty depth) := by
  induction items with
  | nil => rfl
  | cons v items ih => rw [prettyItems, ih, List.map_cons]

theorem prettyMembers_eq (depth : Nat) (members : List (String × Value)) :
    prettyMembers depth members =
      members.map fun m => quoted m.1 ++ ':' :: ' ' :: m.2.pretty depth := by
  induction members with
  | nil => rfl
  | cons m members ih => rw [prettyMembers, ih, List.map_cons]

theorem blanks_newLine (depth : Nat) : Blanks (newLine depth) := by
  intro c hc
  rcases List.mem_cons.1 hc with rfl | hc
  · rfl
  · rw [List.eq_of_mem_replicate hc]
    rfl

/-- The blanks in front of the closing bracket of a block. -/
def closingLine (depth : Nat) (items : List (List Char)) : List Char :=
  if items.isEmpty then [] else newLine depth

theorem blanks_closingLine (depth : Nat) (items : List (List Char)) :
    Blanks (closingLine depth items) := by
  unfold closingLine
  split
  · exact blanks_nil
  · exact blanks_newLine depth

theorem block_eq (opening closing : Char) (depth : Nat) (items : List (List Char)) :
    block opening closing depth items =
      opening :: (commaJoin (items.map (newLine (depth + 1) ++ ·)) ++
        (closingLine depth items ++ [closing])) := by
  cases items <;> simp [block, closingLine, commaJoin]

theorem Value.laid_pretty (v : Value) : ∀ depth, v.Laid (v.pretty depth) := by
  induction v using Value.induction_parts with
  | step v ih =>
    intro depth
    have hline := blanks_newLine (depth + 1)
    cases v with
    | array items =>
      rw [Value.pretty, block_eq, prettyItems_eq, List.map_map]
      exact laid_array_join hline (blanks_closingLine _ _) fun v hv => ih v hv (depth + 1)
    | object members =>
      rw [Value.pretty, block_eq, prettyMembers_eq, List.map_map]
      exact laid_object_join (g := [' ']) hline (blanks_closingLine _ _) (by simp [Blanks, isBlank])
        fun m hm => ih m.2 (List.mem_map_of_mem hm) (depth + 1)
    | _ => exact .plain rfl

end HandlerScript.Json
