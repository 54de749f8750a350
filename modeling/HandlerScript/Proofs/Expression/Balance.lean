import HandlerScript.Proofs.Expression.Groups
import Mathlib.Data.List.Infix

/-! Balanced parentheses.

    Groups can be replaced in rounds: the last opening parenthesis with the first closing one behind it gives
    way to a number. A number has no parentheses, so every round leaves one opening parenthesis less, and the
    rounds come to an end with what reading the text once from its end makes of it.

    They end well exactly if the parentheses are balanced. Reading from the end, an opening parenthesis finds
    a closing one as long as no text behind has more opening than closing ones, and the closing ones that are
    too many are what is left. Balance looks at the text from the front. If the totals agree, what one front
    has too many of is what the text behind it lacks, so both ways to look are the same. -/

namespace HandlerScript.Expression

open Decimal (plain)

/-! ### Definitions -/

/-- No front of a text closes more parentheses than it opens, and the text closes all that it opens. -/
structure Balanced (cs : List Char) : Prop where
  front : ∀ front, front <+: cs → front.count ')' ≤ front.count '('
  total : cs.count '(' = cs.count ')'

instance (cs : List Char) : Decidable (Balanced cs) :=
  decidable_of_iff
    ((∀ front ∈ cs.inits, front.count ')' ≤ front.count '(') ∧ cs.count '(' = cs.count ')')
    ⟨fun h => ⟨fun front hfront => h.1 front ((List.mem_inits front cs).2 hfront), h.2⟩,
      fun h => ⟨fun front hfront => h.front front ((List.mem_inits front cs).1 hfront), h.total⟩⟩

/-- What replacing the last group again and again comes to, and in how many rounds: a text without
    parentheses, or nothing if a parenthesis has no other to go with it. -/
inductive Rounds : Nat → List Char → Option (List Char) → Prop
  | done {cs : List Char} : '(' ∉ cs → ')' ∉ cs → Rounds 0 cs (some cs)
  | unopened {cs : List Char} : '(' ∉ cs → ')' ∈ cs → Rounds 0 cs none
  | unclosed {front behind : List Char} : '(' ∉ behind → ')' ∉ behind →
      Rounds 0 (front ++ '(' :: behind) none
  | round {n : Nat} {front inside rest : List Char} {result : Option (List Char)} :
      '(' ∉ inside → ')' ∉ inside → '(' ∉ rest →
      Rounds n (front ++ (plain (flat inside) ++ rest)) result →
      Rounds (n + 1) (front ++ '(' :: (inside ++ ')' :: rest)) result

section Collapse

variable {cs ds front left : List Char}

/-! ### What is left -/

theorem open_not_mem_plain (x : Float) : '(' ∉ plain x := fun hmem => (isNumeric_plain x _ hmem).ne_open rfl

theorem open_not_mem_of_collapse (h : collapse cs = some left) : '(' ∉ left := by
  induction cs generalizing left with
  | nil =>
    cases h
    exact List.not_mem_nil
  | cons c cs ih =>
    obtain ⟨behind, hbehind, ⟨hc, rfl⟩ | ⟨rfl, inside, rest, -, rfl, rfl⟩⟩ := collapse_cases h
    · exact List.not_mem_cons_of_ne_of_not_mem (Ne.symm hc) (ih hbehind)
    · intro hmem
      rcases List.mem_append.1 hmem with hmem | hmem
      · exact open_not_mem_plain _ hmem
      · exact ih hbehind (List.mem_append_right _ (List.mem_cons_of_mem _ hmem))

/-- Every opening parenthesis takes a closing one with it. -/
theorem count_collapse (h : collapse cs = some left) : left.count ')' + cs.count '(' = cs.count ')' := by
  induction cs generalizing left with
  | nil =>
    cases h
    rfl
  | cons c cs ih =>
    obtain ⟨behind, hbehind, ⟨hc, rfl⟩ | ⟨rfl, inside, rest, hinside, rfl, rfl⟩⟩ := collapse_cases h
    · have hcount := ih hbehind
      rw [List.count_cons_of_ne hc, List.count_cons, List.count_cons]
      omega
    · have hcount := ih hbehind
      rw [List.count_append, List.count_cons_self, List.count_eq_zero_of_not_mem hinside] at hcount
      rw [List.count_append, List.count_eq_zero_of_not_mem (not_mem_plain _), List.count_cons_self,
        List.count_cons_of_ne (by decide)]
      omega

/-! ### When a text can be collapsed -/

/-- What stands behind a text that can be collapsed can be collapsed. -/
theorem exists_collapse_of_append (h : collapse (front ++ cs) = some left) :
    ∃ behind, collapse cs = some behind := by
  induction front generalizing left with
  | nil => exact ⟨left, h⟩
  | cons c front ih =>
    obtain ⟨behind, hbehind, -⟩ := collapse_cases h
    exact ih hbehind

/-- A text can be collapsed if no text behind opens more parentheses than it closes. -/
theorem exists_collapse_iff : (∃ left, collapse cs = some left) ↔
    ∀ behind, behind <:+ cs → behind.count '(' ≤ behind.count ')' := by
  constructor
  · rintro ⟨left, h⟩ behind ⟨front, rfl⟩
    obtain ⟨left', hleft'⟩ := exists_collapse_of_append h
    have hcount := count_collapse hleft'
    omega
  · intro h
    induction cs with
    | nil => exact ⟨[], rfl⟩
    | cons c cs ih =>
      obtain ⟨behind, hbehind⟩ := ih fun behind hsuffix => h behind (hsuffix.trans (List.suffix_cons c cs))
      by_cases hc : c = '('
      · subst hc
        -- the counts of the whole text leave a closing parenthesis for this one
        have hwhole := h _ List.suffix_rfl
        have hcount := count_collapse hbehind
        rw [List.count_cons_self, List.count_cons_of_ne (by decide)] at hwhole
        have hclose : ')' ∈ behind := List.count_pos_iff.1 (by omega)
        obtain ⟨inside, rest, rfl, hinside⟩ := List.eq_append_cons_of_mem hclose
        exact ⟨_, collapse_group hbehind hinside⟩
      · refine ⟨c :: behind, ?_⟩
        rw [collapse_cons hc, hbehind]
        rfl

/-- Seen from the end, no text behind opens more parentheses than it closes. -/
theorem balanced_iff : Balanced cs ↔
    (∀ behind, behind <:+ cs → behind.count '(' ≤ behind.count ')') ∧ cs.count '(' = cs.count ')' := by
  constructor
  · refine fun h => ⟨?_, h.total⟩
    rintro behind ⟨front, rfl⟩
    have hfront := h.front front (List.prefix_append front behind)
    have htotal := h.total
    rw [List.count_append, List.count_append] at htotal
    omega
  · refine fun ⟨hbehind, htotal⟩ => ⟨?_, htotal⟩
    rintro front ⟨behind, rfl⟩
    have hbehind := hbehind behind (List.suffix_append front behind)
    rw [List.count_append, List.count_append] at htotal
    omega

theorem exists_collapses_iff : (∃ left, Collapses cs left) ↔ Balanced cs := by
  rw [balanced_iff, ← exists_collapse_iff]
  constructor
  · rintro ⟨left, h⟩
    have hcount := count_collapse h.collapsed
    rw [List.count_eq_zero_of_not_mem h.closed] at hcount
    exact ⟨⟨left, h.collapsed⟩, by omega⟩
  · rintro ⟨⟨left, h⟩, htotal⟩
    have hcount := count_collapse h
    exact ⟨left, h, List.count_eq_zero.1 (by omega)⟩

theorem flatten?_isSome_iff : (flatten? cs).isSome ↔ Balanced cs := by
  rw [Option.isSome_iff_exists, ← exists_collapses_iff]
  exact exists_congr fun _ => flatten?_eq_some_iff

/-! ### Rounds -/

theorem collapse_of_not_mem (h : '(' ∉ cs) : collapse cs = some cs := by
  induction cs with
  | nil => rfl
  | cons c cs ih =>
    obtain ⟨hc, hcs⟩ := List.ne_and_not_mem_of_not_mem_cons h
    rw [collapse_cons (Ne.symm hc), ih hcs]
    rfl

/-- What stands in front of a text depends on it only through what it collapses to. -/
theorem collapse_append_congr (h : collapse cs = collapse ds) (front : List Char) :
    collapse (front ++ cs) = collapse (front ++ ds) := by
  induction front with
  | nil => exact h
  | cons c front ih => rw [List.cons_append, List.cons_append, collapse, collapse, ih]

theorem flatten?_congr (h : collapse cs = collapse ds) : flatten? cs = flatten? ds := by
  rw [flatten?, flatten?, h]

/-- Reading a text once from its end comes to what the rounds come to. -/
theorem Rounds.flatten?_eq {n : Nat} {result : Option (List Char)} (h : Rounds n cs result) :
    flatten? cs = result := by
  induction h with
  | done hopen hclose => exact flatten?_eq_some_iff.2 ⟨collapse_of_not_mem hopen, hclose⟩
  | unopened hopen hclose =>
    refine Option.eq_none_iff_forall_ne_some.2 fun left hleft => ?_
    have hcollapses := flatten?_eq_some_iff.1 hleft
    cases (collapse_of_not_mem hopen).symm.trans hcollapses.collapsed
    exact hcollapses.closed hclose
  | unclosed hopen hclose =>
    refine Option.eq_none_iff_forall_ne_some.2 fun left hleft => ?_
    obtain ⟨behind, hbehind⟩ := exists_collapse_of_append (flatten?_eq_some_iff.1 hleft).collapsed
    have hcount := count_collapse hbehind
    rw [List.count_cons_self, List.count_cons_of_ne (by decide),
      List.count_eq_zero_of_not_mem hclose] at hcount
    omega
  | @round n front inside rest result hopen hclose hrest _ ih =>
    have hbehind : collapse (inside ++ ')' :: rest) = some (inside ++ ')' :: rest) :=
      collapse_of_not_mem (by simp [hopen, hrest])
    have hnumber : collapse (plain (flat inside) ++ rest) = some (plain (flat inside) ++ rest) :=
      collapse_of_not_mem (by simp [open_not_mem_plain, hrest])
    rw [← ih]
    exact flatten?_congr (collapse_append_congr ((collapse_group hbehind hclose).trans hnumber.symm) front)

/-- A round takes one opening parenthesis away. -/
theorem count_round {inside rest : List Char} (x : Float) (hinside : '(' ∉ inside) :
    (front ++ '(' :: (inside ++ ')' :: rest)).count '(' = (front ++ (plain x ++ rest)).count '(' + 1 := by
  rw [List.count_append, List.count_append, List.count_append, List.count_cons_self, List.count_append,
    List.count_cons_of_ne (by decide), List.count_eq_zero_of_not_mem hinside,
    List.count_eq_zero_of_not_mem (open_not_mem_plain x)]
  omega

theorem exists_last_open (h : '(' ∈ cs) : ∃ front behind, cs = front ++ '(' :: behind ∧ '(' ∉ behind := by
  obtain ⟨behind, front, heq, hbehind⟩ := List.eq_append_cons_of_mem (List.mem_reverse.2 h)
  refine ⟨front.reverse, behind.reverse, ?_, fun hmem => hbehind (List.mem_reverse.1 hmem)⟩
  rw [← List.reverse_reverse cs, heq, List.reverse_append, List.reverse_cons, List.append_assoc]
  rfl

/-- The rounds come to an end: there are no more of them than the text has opening parentheses. -/
theorem exists_rounds (cs : List Char) : ∃ n ≤ cs.count '(', ∃ result, Rounds n cs result := by
  by_cases hopen : '(' ∈ cs
  · obtain ⟨front, behind, hcs, hbehind⟩ := exists_last_open hopen
    by_cases hclose : ')' ∈ behind
    · obtain ⟨inside, rest, rfl, hinside⟩ := List.eq_append_cons_of_mem hclose
      rw [List.mem_append, List.mem_cons, not_or, not_or] at hbehind
      have hcount : cs.count '(' = (front ++ (plain (flat inside) ++ rest)).count '(' + 1 := by
        rw [hcs, count_round _ hbehind.1]
      obtain ⟨n, hn, result, hrounds⟩ := exists_rounds (front ++ (plain (flat inside) ++ rest))
      exact ⟨n + 1, by omega, result, hcs ▸ .round hbehind.1 hinside hbehind.2.2 hrounds⟩
    · exact ⟨0, Nat.zero_le _, none, hcs ▸ .unclosed hbehind hclose⟩
  · by_cases hclose : ')' ∈ cs
    · exact ⟨0, Nat.zero_le _, none, .unopened hopen hclose⟩
    · exact ⟨0, Nat.zero_le _, some cs, .done hopen hclose⟩
termination_by cs.count '('
decreasing_by omega

/-! ### Values -/

/-- Leaving out other characters does not change whether parentheses are balanced. -/
theorem Balanced.of_filter {p : Char → Bool} (hopen : p '(' = true) (hclose : p ')' = true)
    (h : Balanced (cs.filter p)) : Balanced cs where
  front front hfront := by
    have hcount := h.front _ (hfront.filter p)
    rwa [List.count_filter hopen, List.count_filter hclose] at hcount
  total := by
    have hcount := h.total
    rwa [List.count_filter hopen, List.count_filter hclose] at hcount

/-- Replacing the last group again and again ends with what `flatten?` says. It leaves a text exactly if
    the parentheses are balanced, and then one without parentheses; else the value is zero. -/
theorem groups_vanish_iff_balanced (text : String) :
    (∃ n ≤ text.toList.count '(', Rounds n text.toList (flatten? text.toList)) ∧
    (∀ n result, Rounds n text.toList result → result = flatten? text.toList) ∧
    ((flatten? text.toList).isSome ↔ Balanced text.toList) ∧
    (∀ left, flatten? text.toList = some left → '(' ∉ left ∧ ')' ∉ left) ∧
    (¬ Balanced text.toList → value text = 0.0) := by
  refine ⟨?_, fun n result h => h.flatten?_eq.symm, flatten?_isSome_iff, ?_, ?_⟩
  · obtain ⟨n, hn, result, h⟩ := exists_rounds text.toList
    exact ⟨n, hn, h.flatten?_eq ▸ h⟩
  · intro left h
    have hcollapses := flatten?_eq_some_iff.1 h
    exact ⟨open_not_mem_of_collapse hcollapses.collapsed, hcollapses.closed⟩
  · intro h
    have hnone : flatten? (text.toList.filter fun c => !Text.isBlank c) = none := by
      rw [← Option.not_isSome_iff_eq_none, flatten?_isSome_iff]
      exact fun hbalanced => h (hbalanced.of_filter (by decide) (by decide))
    rw [value, hnone]

/-- Totals that agree are not enough. -/
theorem groups_vanish_iff_balanced_crossed : ¬ Balanced "(1)) + ((2)".toList ∧
    flatten? "(1)) + ((2)".toList = none ∧ value "(1)) + ((2)" = 0.0 := by
  have hcrossed : ¬ Balanced "(1)) + ((2)".toList := by decide +kernel
  obtain ⟨-, -, hsome, -, hzero⟩ := groups_vanish_iff_balanced "(1)) + ((2)"
  exact ⟨hcrossed, Option.not_isSome_iff_eq_none.1 fun h => hcrossed (hsome.1 h), hzero hcrossed⟩

end Collapse

end HandlerScript.Expression
