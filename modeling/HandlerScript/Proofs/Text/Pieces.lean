import HandlerScript.Proofs.Text.Trim
import HandlerScript.Text.Pieces

/-! Pieces between double characters.

    A text is cut wherever the separating character stands twice in a row. A text that does not have the
    character is one piece, and a piece that does not have it ends at the next separator. Blanks at the
    ends of the text are at the ends of its outer pieces, so the pieces of a trimmed text are those of
    the text, blanks around them apart. -/

namespace HandlerScript.Text

section Pieces

variable {sep c : Char} {cs : List Char}

theorem piecesAtDouble_ne_nil (sep : Char) (cs : List Char) : piecesAtDouble sep cs ≠ [] := by
  fun_cases piecesAtDouble sep cs with
  | case1 => exact List.cons_ne_nil _ _
  | case2 a b cs h =>
    cases piecesAtDouble sep (b :: cs) <;> exact List.cons_ne_nil _ _
  | case3 => exact List.cons_ne_nil _ _

theorem piecesAtDouble_cons (hc : c ≠ sep) (cs : List Char) :
    piecesAtDouble sep (c :: cs) = onFirst c (piecesAtDouble sep cs) := by
  cases cs with
  | nil => rfl
  | cons d cs => rw [piecesAtDouble, if_neg fun h => hc h.1]

theorem piecesAtDouble_of_not_mem (h : sep ∉ cs) : piecesAtDouble sep cs = [cs] := by
  induction cs with
  | nil => rfl
  | cons c cs ih =>
    rw [List.mem_cons, not_or] at h
    rw [piecesAtDouble_cons (Ne.symm h.1), ih h.2]
    rfl

theorem piecesAtDouble_append (h : sep ∉ cs) (rest : List Char) :
    piecesAtDouble sep (cs ++ sep :: sep :: rest) = cs :: piecesAtDouble sep rest := by
  induction cs with
  | nil => rw [List.nil_append, piecesAtDouble, if_pos ⟨rfl, rfl⟩]
  | cons c cs ih =>
    rw [List.mem_cons, not_or] at h
    rw [List.cons_append, piecesAtDouble_cons (Ne.symm h.1), ih h.2]
    rfl

/-- A character behind a text stands at the end of its last piece. -/
theorem piecesAtDouble_concat (hc : c ≠ sep) (cs : List Char) : ∃ front last,
    piecesAtDouble sep cs = front ++ [last] ∧
    piecesAtDouble sep (cs ++ [c]) = front ++ [last ++ [c]] := by
  fun_induction piecesAtDouble sep cs with
  | case1 a b cs h ih =>
    obtain ⟨front, last, hcs, hconcat⟩ := ih
    refine ⟨[] :: front, last, by rw [hcs]; rfl, ?_⟩
    rw [List.cons_append, List.cons_append, piecesAtDouble, if_pos h, hconcat]
    rfl
  | case2 a b cs h ih =>
    obtain ⟨front, last, hcs, hconcat⟩ := ih
    rw [List.cons_append, List.cons_append, piecesAtDouble, if_neg h, hcs]
    rw [List.cons_append] at hconcat
    rw [hconcat]
    cases front with
    | nil => exact ⟨[], a :: last, rfl, rfl⟩
    | cons piece front => exact ⟨(a :: piece) :: front, last, rfl, rfl⟩
  | case3 cs h =>
    refine ⟨[], cs, rfl, ?_⟩
    match cs, h with
    | [], _ => rfl
    | [a], _ => simp [piecesAtDouble, hc, onFirst]
    | a :: b :: cs, h => exact absurd rfl (h a b cs)

end Pieces

section Trimmed

variable {sep c : Char}

theorem map_trimmed_onFirst (hc : isBlank c = true) {pieces : List (List Char)} (h : pieces ≠ []) :
    (onFirst c pieces).map trimmed = pieces.map trimmed := by
  cases pieces with
  | nil => exact absurd rfl h
  | cons piece pieces => rw [onFirst, List.map_cons, List.map_cons, trimmed_cons hc]

theorem map_trimmed_piecesAtDouble_cons (hc : isBlank c = true) (hsep : isBlank sep = false)
    (cs : List Char) :
    (piecesAtDouble sep (c :: cs)).map trimmed = (piecesAtDouble sep cs).map trimmed := by
  have hne : c ≠ sep := fun h => by
    rw [h, hsep] at hc
    cases hc
  rw [piecesAtDouble_cons hne, map_trimmed_onFirst hc (piecesAtDouble_ne_nil sep cs)]

theorem map_trimmed_piecesAtDouble_trimmed (hsep : isBlank sep = false) (cs : List Char) :
    (piecesAtDouble sep (trimmed cs)).map trimmed = (piecesAtDouble sep cs).map trimmed := by
  refine apply_trimmed (f := fun cs => (piecesAtDouble sep cs).map trimmed)
    (fun c cs hc => map_trimmed_piecesAtDouble_cons hc hsep cs) (fun c cs hc => ?_) cs
  have hne : c ≠ sep := fun h => by
    rw [h, hsep] at hc
    cases hc
  obtain ⟨front, last, hcs, hconcat⟩ := piecesAtDouble_concat hne cs
  simp only [hcs, hconcat, List.map_append, List.map_cons, List.map_nil, trimmed_concat hc]

end Trimmed

end HandlerScript.Text
