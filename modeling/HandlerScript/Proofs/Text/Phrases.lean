import HandlerScript.Text.Pieces
import Mathlib.Data.List.Infix

/-! Phrases in texts.

    A phrase stands at the front of a text if the text is the phrase and a rest; a text is cut at the
    first place where it stands. Replacing goes over the text once: an occurrence is replaced and passed
    over, any other character stays. So a phrase that occurs nowhere is replaced nowhere, and where each
    character of a text was written by itself or as a phrase, the phrase is replaced exactly where it
    was written. -/

namespace HandlerScript.Text

/-! ### Finding -/

theorem after?_eq_some_iff : ∀ {mark cs rest : List Char},
    after? mark cs = some rest ↔ cs = mark ++ rest
  | [], cs, rest => by
    rw [after?, Option.some.injEq]
    rfl
  | m :: ms, [], rest => by simp [after?]
  | m :: ms, c :: cs, rest => by
    rw [after?]
    split
    · rename_i h
      rw [after?_eq_some_iff, h, List.cons_append, List.cons.injEq, eq_self, true_and]
    · rename_i h
      simp [Ne.symm h]

theorem after?_eq_none_iff {mark cs : List Char} : after? mark cs = none ↔ ¬ mark <+: cs := by
  rw [Option.eq_none_iff_forall_ne_some]
  constructor
  · rintro h ⟨rest, hrest⟩
    exact h rest (after?_eq_some_iff.2 hrest.symm)
  · intro h rest hrest
    exact h ⟨rest, (after?_eq_some_iff.1 hrest).symm⟩

/-- Cutting finds the first occurrence of a mark. -/
theorem cut?_eq_some_iff {mark : List Char} : ∀ {cs body rest : List Char},
    cut? mark cs = some (body, rest) ↔
      cs = body ++ (mark ++ rest) ∧ ∀ i < body.length, ¬ mark <+: cs.drop i
  | [], body, rest => by
    rw [cut?]
    constructor
    · intro h
      obtain ⟨r, hr, heq⟩ := Option.map_eq_some_iff.1 h
      cases heq
      have hnil : [] = mark ++ rest := after?_eq_some_iff.1 hr
      exact ⟨hnil, fun i hi => absurd hi (Nat.not_lt_zero i)⟩
    · rintro ⟨heq, -⟩
      obtain ⟨rfl, hmark⟩ := List.append_eq_nil_iff.1 heq.symm
      exact Option.map_eq_some_iff.2 ⟨rest, after?_eq_some_iff.2 hmark.symm, rfl⟩
  | c :: cs, body, rest => by
    rw [cut?]
    split
    · rename_i r hr
      have hcs := after?_eq_some_iff.1 hr
      constructor
      · intro h
        cases h
        exact ⟨hcs, fun i hi => absurd hi (Nat.not_lt_zero i)⟩
      · rintro ⟨heq, hfirst⟩
        cases body with
        | nil => rw [List.append_cancel_left (hcs.symm.trans heq)]
        | cons b bs => exact absurd ⟨r, hcs.symm⟩ (hfirst 0 (Nat.succ_pos _))
    · rename_i hnone
      have hno := after?_eq_none_iff.1 hnone
      constructor
      · intro h
        obtain ⟨⟨left, right⟩, hcut, heq⟩ := Option.map_eq_some_iff.1 h
        cases heq
        obtain ⟨hsplit, hfirst⟩ := cut?_eq_some_iff.1 hcut
        refine ⟨by rw [hsplit, List.cons_append], fun i hi => ?_⟩
        cases i with
        | zero => exact hno
        | succ i => exact hfirst i (Nat.lt_of_succ_lt_succ hi)
      · rintro ⟨heq, hfirst⟩
        cases body with
        | nil => exact absurd ⟨rest, heq.symm⟩ hno
        | cons b bs =>
          obtain ⟨rfl, htail⟩ := List.cons.inj heq
          refine Option.map_eq_some_iff.2 ⟨(bs, rest), cut?_eq_some_iff.2 ⟨htail, fun i hi => ?_⟩, rfl⟩
          exact hfirst (i + 1) (Nat.succ_lt_succ hi)

/-- Nothing is cut where the phrase does not stand. -/
theorem cut?_of_not_infix {mark : List Char} : ∀ {cs : List Char}, ¬ mark <:+: cs → cut? mark cs = none
  | [], h => by
    rw [cut?, after?_eq_none_iff.2 fun hprefix => h hprefix.isInfix]
    rfl
  | c :: cs, h => by
    rw [List.infix_cons_iff, not_or] at h
    rw [cut?, after?_eq_none_iff.2 h.1, cut?_of_not_infix h.2]
    rfl

/-- A text is cut at a phrase whose first character stands nowhere before it. -/
theorem cut?_append {m : Char} {body : List Char} (h : m ∉ body) (ms rest : List Char) :
    cut? (m :: ms) (body ++ (m :: ms ++ rest)) = some (body, rest) := by
  refine cut?_eq_some_iff.2 ⟨rfl, fun i hi hprefix => h ?_⟩
  rw [List.drop_append_of_le_length (Nat.le_of_lt hi), List.drop_eq_getElem_cons hi] at hprefix
  exact (List.cons_prefix_cons.1 hprefix).1 ▸ List.getElem_mem hi

theorem cut?_char_eq_some_iff {q : Char} {cs raw rest : List Char} :
    cut? [q] cs = some (raw, rest) ↔ cs = raw ++ q :: rest ∧ q ∉ raw := by
  rw [cut?_eq_some_iff]
  refine and_congr_right fun heq => ?_
  subst heq
  constructor
  · intro hfirst hmem
    obtain ⟨i, hi, hget⟩ := List.mem_iff_getElem.1 hmem
    refine hfirst i hi ⟨raw.drop (i + 1) ++ q :: rest, ?_⟩
    rw [List.drop_append_of_le_length (Nat.le_of_lt hi), List.drop_eq_getElem_cons hi, hget]
    rfl
  · rintro hmem i hi ⟨tail, htail⟩
    rw [List.singleton_append, List.drop_append_of_le_length (Nat.le_of_lt hi),
      List.drop_eq_getElem_cons hi] at htail
    exact hmem ((List.cons.inj htail).1 ▸ List.getElem_mem hi)

/-- A phrase does not reach over a character that it has not got. -/
theorem infix_append_cons {phrase left right : List Char} {c : Char} (hc : c ∉ phrase)
    (h : phrase <:+: left ++ c :: right) : phrase <:+: left ∨ phrase <:+: right := by
  have hfront : ∀ {front : List Char}, c ∉ front → front <+: c :: right → front = [] := by
    intro front hfront hprefix
    cases front with
    | nil => rfl
    | cons d ds =>
      obtain rfl := (List.cons_prefix_cons.1 hprefix).1
      exact absurd List.mem_cons_self hfront
  rcases List.infix_append_iff.1 h with h | h | ⟨l₁, l₂, rfl, h₁, h₂⟩
  · exact .inl h
  · rcases List.infix_cons_iff.1 h with h | h
    · rw [hfront hc h]
      exact .inl List.nil_infix
    · exact .inr h
  · rw [hfront (fun hmem => hc (List.mem_append_right l₁ hmem)) h₂, List.append_nil]
    exact .inl h₁.isInfix

/-! ### Replacing -/

section Replace

variable {phrase new cs : List Char} {c : Char}

theorem replaceFrom_length (front cs : List Char) :
    replaceFrom phrase new front.length (front ++ cs) = replaceFrom phrase new 0 cs := by
  induction front with
  | nil => rfl
  | cons _ front ih => exact ih

theorem replace_eq_replaceFrom (h : phrase ≠ []) (cs : List Char) :
    replace phrase new cs = replaceFrom phrase new 0 cs :=
  if_neg (by simpa using h)

theorem replace_nil (phrase new : List Char) : replace phrase new [] = [] := by
  unfold replace
  split <;> rfl

/-- An occurrence at the front is replaced, and replacing goes on behind it. -/
theorem replace_append (h : phrase ≠ []) (cs : List Char) :
    replace phrase new (phrase ++ cs) = new ++ replace phrase new cs := by
  obtain ⟨p, ps, rfl⟩ := List.exists_cons_of_ne_nil h
  have hfront : (after? (p :: ps) (p :: (ps ++ cs))).isSome = true :=
    Option.isSome_iff_exists.2 ⟨cs, after?_eq_some_iff.2 rfl⟩
  rw [replace_eq_replaceFrom h, replace_eq_replaceFrom h, List.cons_append, replaceFrom, if_pos hfront]
  exact congrArg (new ++ ·) (replaceFrom_length ps cs)

/-- A character at which no occurrence begins stays. -/
theorem replace_cons (h : ¬ phrase <+: c :: cs) :
    replace phrase new (c :: cs) = c :: replace phrase new cs := by
  have hne : phrase ≠ [] := fun hnil => h (hnil ▸ List.nil_prefix)
  rw [replace_eq_replaceFrom hne, replace_eq_replaceFrom hne, replaceFrom, after?_eq_none_iff.2 h]
  rfl

/-- Characters with which the phrase does not begin stay. -/
theorem replace_append_of_not_mem {p : Char} {front : List Char} (h : p ∉ front) (cs : List Char) :
    replace (p :: phrase) new (front ++ cs) = front ++ replace (p :: phrase) new cs := by
  induction front with
  | nil => rfl
  | cons c front ih =>
    obtain ⟨hc, hfront⟩ := not_or.1 fun hmem => h (List.mem_cons.2 hmem)
    have hno : ¬ p :: phrase <+: c :: (front ++ cs) := fun hprefix =>
      hc (List.cons_prefix_cons.1 hprefix).1
    rw [List.cons_append, replace_cons hno, ih hfront, List.cons_append]

/-- A phrase that does not occur is not replaced. -/
theorem replace_of_not_infix (h : ¬ phrase <:+: cs) : replace phrase new cs = cs := by
  induction cs with
  | nil => exact replace_nil phrase new
  | cons c cs ih =>
    rw [List.infix_cons_iff, not_or] at h
    rw [replace_cons h.1, ih h.2]

/-- Where a character of the new text is missing, nothing was replaced. -/
theorem replace_eq_self {d : Char} (hphrase : phrase ≠ []) (hd : d ∈ new) (h : d ∉ replace phrase new cs) :
    replace phrase new cs = cs := by
  induction cs with
  | nil => exact replace_nil phrase new
  | cons c cs ih =>
    by_cases hfront : phrase <+: c :: cs
    · obtain ⟨rest, hrest⟩ := hfront
      rw [← hrest, replace_append hphrase] at h
      exact absurd (List.mem_append_left _ hd) h
    · rw [replace_cons hfront] at h ⊢
      rw [ih fun hmem => h (List.mem_cons_of_mem c hmem)]

/-- Replacing brings no other characters than the new ones. -/
theorem mem_replace {d : Char} (h : d ∈ replace phrase new cs) : d ∈ cs ∨ d ∈ new := by
  have hfrom : ∀ {skip : Nat} {text : List Char}, d ∈ replaceFrom phrase new skip text →
      d ∈ text ∨ d ∈ new := by
    intro skip text
    fun_induction replaceFrom phrase new skip text with
    | case1 => exact .inl
    | case2 skip c text ih => exact fun h => (ih h).imp_left (List.mem_cons_of_mem c)
    | case3 c text hfront ih =>
      intro h
      rcases List.mem_append.1 h with hnew | h
      · exact .inr hnew
      · exact (ih h).imp_left (List.mem_cons_of_mem c)
    | case4 c text hfront ih =>
      intro h
      rcases List.mem_cons.1 h with rfl | h
      · exact .inl List.mem_cons_self
      · exact (ih h).imp_left (List.mem_cons_of_mem c)
  unfold replace at h
  split at h
  · exact .inl h
  · exact hfrom h

end Replace

end HandlerScript.Text
