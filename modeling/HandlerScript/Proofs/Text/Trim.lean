import HandlerScript.Text.Blank
import Mathlib.Data.List.DropRight

/-! Trimming is done once.

    What trimming leaves begins and ends with characters that are not blank, so trimming it again
    changes nothing. It comes to dropping blanks at the two ends one by one. A text that trimming leaves
    as it is, and that is not empty, is called tidy; names that commands trim and check are. -/

namespace HandlerScript.Text

/-- No blank stands in front of what trimming leaves, a front part of what follows the leading blanks. -/
theorem dropWhile_trimmed (cs : List Char) : (trimmed cs).dropWhile isBlank = trimmed cs := by
  rw [List.dropWhile_eq_self_iff]
  intro hpos
  have hfront : trimmed cs <+: cs.dropWhile isBlank := List.rdropWhile_prefix isBlank _
  have hlength : 0 < (cs.dropWhile isBlank).length := hpos.trans_le hfront.length_le
  rw [hfront.getElem hpos]
  exact List.dropWhile_get_zero_not isBlank cs hlength

theorem trimmed_trimmed (cs : List Char) : trimmed (trimmed cs) = trimmed cs := by
  rw [trimmed, dropWhile_trimmed]
  exact List.rdropWhile_idempotent isBlank _

theorem trim_trim (s : String) : trim (trim s) = trim s := by
  rw [trim, trim, String.toList_ofList, trimmed_trimmed]

theorem trimmed_subset (cs : List Char) : trimmed cs ⊆ cs := fun _ hc =>
  (List.dropWhile_suffix isBlank).subset ((List.rdropWhile_prefix isBlank _).subset hc)

theorem mem_dropWhile {p : Char → Bool} {c : Char} {cs : List Char} (h : c ∈ cs) (hc : p c = false) :
    c ∈ cs.dropWhile p := by
  rw [← List.takeWhile_append_dropWhile (p := p) (l := cs)] at h
  rcases List.mem_append.1 h with h | h
  · have hp : p c = true := List.mem_takeWhile_imp h
    rw [hc] at hp
    cases hp
  · exact h

section Ends

variable {α : Type} {c : Char}

theorem trimmed_cons (hc : isBlank c = true) (cs : List Char) : trimmed (c :: cs) = trimmed cs := by
  rw [trimmed, trimmed, List.dropWhile_cons_of_pos hc]

theorem trimmed_concat (hc : isBlank c = true) (cs : List Char) : trimmed (cs ++ [c]) = trimmed cs := by
  rw [trimmed, trimmed, List.dropWhile_append]
  split
  · rename_i hblank
    rw [List.isEmpty_iff.1 hblank, List.dropWhile_cons_of_pos hc]
    rfl
  · exact List.rdropWhile_concat_pos _ _ _ hc

/-- What does not mind a blank at the end does not mind dropping all of them. -/
theorem apply_rdropWhile {f : List Char → α} (back : ∀ c cs, isBlank c = true → f (cs ++ [c]) = f cs)
    (cs : List Char) : f (cs.rdropWhile isBlank) = f cs := by
  induction cs using List.reverseRecOn with
  | nil => rfl
  | append_singleton cs c ih =>
    rw [List.rdropWhile_concat]
    split
    · rename_i hc
      rw [ih, back c cs hc]
    · rfl

/-- What does not mind a blank at the start does not mind dropping all of them. -/
theorem apply_dropWhile {f : List Char → α} (front : ∀ c cs, isBlank c = true → f (c :: cs) = f cs)
    (cs : List Char) : f (cs.dropWhile isBlank) = f cs := by
  induction cs with
  | nil => rfl
  | cons c cs ih =>
    rw [List.dropWhile_cons]
    split
    · rename_i hc
      rw [ih, front c cs hc]
    · rfl

/-- What does not mind a blank at either end does not mind trimming. -/
theorem apply_trimmed {f : List Char → α} (front : ∀ c cs, isBlank c = true → f (c :: cs) = f cs)
    (back : ∀ c cs, isBlank c = true → f (cs ++ [c]) = f cs) (cs : List Char) :
    f (trimmed cs) = f cs :=
  (apply_rdropWhile back _).trans (apply_dropWhile front cs)

theorem dropWhile_append_cons (hc : isBlank c = false) (front back : List Char) :
    (front ++ c :: back).dropWhile isBlank = front.dropWhile isBlank ++ c :: back := by
  induction front with
  | nil => exact List.dropWhile_cons_of_neg (by simp [hc])
  | cons d front ih =>
    rw [List.cons_append, List.dropWhile_cons, List.dropWhile_cons, ih]
    split <;> rfl

theorem rdropWhile_append_cons (hc : isBlank c = false) (front back : List Char) :
    (front ++ c :: back).rdropWhile isBlank = front ++ c :: back.rdropWhile isBlank := by
  induction back using List.reverseRecOn with
  | nil => exact List.rdropWhile_concat_neg _ _ _ (by simp [hc])
  | append_singleton back d ih =>
    rw [← List.cons_append, ← List.append_assoc, List.rdropWhile_concat, List.rdropWhile_concat, ih]
    split <;> simp

/-- In front of a character that is not blank only the start is trimmed, behind it only the end. -/
theorem trimmed_append_cons (hc : isBlank c = false) (front back : List Char) :
    trimmed (front ++ c :: back) = front.dropWhile isBlank ++ c :: back.rdropWhile isBlank := by
  rw [trimmed, dropWhile_append_cons hc]
  exact rdropWhile_append_cons hc _ _

theorem trimmed_cons_of_not (hc : isBlank c = false) (cs : List Char) :
    trimmed (c :: cs) = c :: cs.rdropWhile isBlank :=
  trimmed_append_cons hc [] cs

theorem trimmed_dropWhile (cs : List Char) : trimmed (cs.dropWhile isBlank) = trimmed cs :=
  apply_dropWhile (fun _ cs hc => trimmed_cons hc cs) cs

theorem trimmed_rdropWhile (cs : List Char) : trimmed (cs.rdropWhile isBlank) = trimmed cs :=
  apply_rdropWhile (fun _ cs hc => trimmed_concat hc cs) cs

end Ends

/-- Trimming keeps every character that is not blank. -/
theorem mem_trimmed {c : Char} {cs : List Char} (h : c ∈ cs) (hc : isBlank c = false) :
    c ∈ trimmed cs := by
  rw [trimmed, dropEndWhile, List.mem_reverse]
  exact mem_dropWhile (List.mem_reverse.2 (mem_dropWhile h hc)) hc

/-- A text without blanks is not trimmed. -/
theorem trimmed_eq_self {cs : List Char} (h : ∀ c ∈ cs, isBlank c = false) : trimmed cs = cs := by
  have hfront : cs.dropWhile isBlank = cs := by
    refine List.dropWhile_eq_self_iff.2 fun hpos hblank => ?_
    rw [h _ (List.getElem_mem hpos)] at hblank
    cases hblank
  rw [trimmed, hfront]
  refine List.rdropWhile_eq_self_iff.2 fun hne hblank => ?_
  rw [h _ (List.getLast_mem hne)] at hblank
  cases hblank

/-- A name that is there after trimming just as it was before. -/
def Tidy (name : String) : Prop := name ≠ "" ∧ trim name = name

instance (name : String) : Decidable (Tidy name) := inferInstanceAs (Decidable (_ ∧ _))

theorem tidy_of_nonBlank? {s name : String} (h : nonBlank? s = some name) : Tidy name := by
  unfold nonBlank? at h
  dsimp only at h
  split at h
  · cases h
  · rename_i hne
    cases h
    exact ⟨fun hempty => hne (by rw [hempty]; rfl), trim_trim s⟩

theorem nonBlank?_of_tidy {name : String} (h : Tidy name) : nonBlank? name = some name := by
  rw [nonBlank?, h.2]
  exact if_neg (by simpa using h.1)

/-- A name that a command was given, trimmed and checked. -/
theorem tidy_of_bind_nonBlank? {given : Option String} {name : String}
    (h : given.bind nonBlank? = some name) : Tidy name := by
  obtain ⟨text, -, htext⟩ := Option.bind_eq_some_iff.1 h
  exact tidy_of_nonBlank? htext

end HandlerScript.Text
