import Mathlib.Data.List.TakeDrop
import Mathlib.Data.List.TakeWhile

/-! Runs of characters.

    A text is cut behind its longest front run of a class of characters. What is left begins with no
    character of the class, and any division with that property is this one. -/

namespace HandlerScript.Text

/-- A text that does not begin with a character of a class. -/
def Stops (p : Char → Bool) (cs : List Char) : Prop := ∀ c ∈ cs.head?, p c = false

section Runs

variable {p : Char → Bool} {cs a b : List Char}

theorem stops_nil : Stops p [] := fun _ h => nomatch h

theorem stops_cons {c : Char} (h : p c = false) : Stops p (c :: cs) := by
  rintro d ⟨⟩
  exact h

/-- The longest run of a class and what is left behind it. -/
theorem span_eq_iff : cs.span p = (a, b) ↔ cs = a ++ b ∧ (∀ c ∈ a, p c = true) ∧ Stops p b := by
  rw [List.span_eq_takeWhile_dropWhile, Prod.mk.injEq]
  constructor
  · rintro ⟨rfl, rfl⟩
    refine ⟨List.takeWhile_append_dropWhile.symm, fun c hc => ?_, fun c hc => ?_⟩
    · exact List.mem_takeWhile_imp hc
    · have hhead := List.head?_dropWhile_not p cs
      rw [Option.mem_def.1 hc] at hhead
      exact hhead
  · rintro ⟨rfl, ha, hb⟩
    have hdrop : b.dropWhile p = b ∧ b.takeWhile p = [] := by
      cases b with
      | nil => exact ⟨rfl, rfl⟩
      | cons d ds => simp [hb d rfl]
    rw [List.takeWhile_append_of_pos ha, List.dropWhile_append_of_pos ha, hdrop.1, hdrop.2,
      List.append_nil]
    exact ⟨rfl, rfl⟩

end Runs

end HandlerScript.Text
