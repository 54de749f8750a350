import HandlerScript.Proofs.Expression.Splitting
import HandlerScript.Proofs.Number.ReadBack

/-! Groups and what is left in their place.

    Groups are replaced from the end of a text, but what one of them becomes does not depend on what stands
    around it: texts in a row are replaced one by one. A group becomes the text of its value. That text has
    no parentheses, no operator splits it, and it is read back as the value. So the value of a group can
    be put in for it wherever an operand may stand. -/

namespace HandlerScript.Expression

open Decimal (Sign isPointed plain signed_eq)

/-! ### Parentheses -/

/-- Texts whose parentheses match. -/
inductive Matched : List Char → Prop
  | nil : Matched []
  | char {c : Char} {cs : List Char} : c ≠ '(' → c ≠ ')' → Matched cs → Matched (c :: cs)
  | nest {inside cs : List Char} : Matched inside → Matched cs → Matched ('(' :: inside ++ ')' :: cs)

/-- What a text becomes when its groups are replaced, with no parenthesis left over. -/
structure Collapses (cs left : List Char) : Prop where
  collapsed : collapse cs = some left
  closed : ')' ∉ left

section Collapse

variable {c : Char} {cs cs' ds ds' inside left : List Char}

theorem collapse_cons (h : c ≠ '(') : collapse (c :: cs) = (collapse cs).map (c :: ·) := by
  rw [collapse]
  cases collapse cs with
  | none => rfl
  | some behind => exact if_neg h

/-- A group takes all up to the first closing parenthesis. -/
theorem collapse_group {rest : List Char} (h : collapse cs = some (inside ++ ')' :: rest))
    (hinside : ')' ∉ inside) : collapse ('(' :: cs) = some (plain (flat inside) ++ rest) := by
  have hspan : (inside ++ ')' :: rest).span (· != ')') = (inside, ')' :: rest) := by
    refine Text.span_eq_iff.2 ⟨rfl, ?_, Text.stops_cons (by decide)⟩
    intro d hd
    exact bne_iff_ne.2 fun heq => hinside (heq ▸ hd)
  rw [collapse, h, Option.bind_eq_bind, Option.bind_some, if_pos rfl, hspan]

/-- What a character becomes in front of a text that was collapsed. -/
theorem collapse_cases (h : collapse (c :: cs) = some left) : ∃ behind, collapse cs = some behind ∧
    ((c ≠ '(' ∧ left = c :: behind) ∨
      (c = '(' ∧ ∃ inside rest, ')' ∉ inside ∧ behind = inside ++ ')' :: rest ∧
        left = plain (flat inside) ++ rest)) := by
  rw [collapse] at h
  cases hbehind : collapse cs with
  | none =>
    rw [hbehind] at h
    cases h
  | some behind =>
    rw [hbehind, Option.bind_eq_bind, Option.bind_some] at h
    refine ⟨behind, rfl, ?_⟩
    by_cases hc : c = '('
    · rw [if_pos hc] at h
      rcases hspan : behind.span (· != ')') with ⟨inside, _ | ⟨d, rest⟩⟩
      · rw [hspan] at h
        cases h
      · rw [hspan] at h
        obtain ⟨rfl, hinside, hstops⟩ := Text.span_eq_iff.1 hspan
        obtain rfl : d = ')' := by simpa using hstops d rfl
        refine .inr ⟨hc, inside, rest, ?_, rfl, (Option.some.inj h).symm⟩
        exact fun hmem => absurd (hinside _ hmem) (by decide)
    · rw [if_neg hc] at h
      exact .inl ⟨hc, (Option.some.inj h).symm⟩

/-- Texts in a row are replaced one by one. -/
theorem collapse_append (h : collapse cs = some cs') (h' : collapse ds = some ds') :
    collapse (cs ++ ds) = some (cs' ++ ds') := by
  induction cs generalizing cs' with
  | nil =>
    cases h
    exact h'
  | cons c cs ih =>
    obtain ⟨behind, hbehind, ⟨hc, rfl⟩ | ⟨rfl, inside, rest, hinside, rfl, rfl⟩⟩ := collapse_cases h
    · rw [List.cons_append, collapse_cons hc, ih hbehind]
      rfl
    · -- the first closing parenthesis is the same one, whatever text follows
      have hall := ih hbehind
      rw [List.append_assoc] at hall
      rw [List.cons_append, collapse_group hall hinside, List.append_assoc]
      rfl

end Collapse

/-! ### Texts of numbers -/

/-- Characters that numbers are written with behind the sign. -/
inductive IsBody (c : Char) : Prop
  | pointed : isPointed c = true → IsBody c
  | letter : c.isAlpha = true → IsBody c

/-- Characters that numbers are written with. -/
inductive IsNumeric (c : Char) : Prop
  | sign : Sign.isSign c = true → IsNumeric c
  | body : IsBody c → IsNumeric c

section Characters

variable {c : Char}

theorem IsBody.opensOperand (h : IsBody c) : opensOperand c = false := by
  by_contra hopens
  simp only [Expression.opensOperand, Bool.not_eq_false, Bool.or_eq_true, beq_iff_eq] at hopens
  cases h with
  | pointed h | letter h =>
    rcases hopens with (((rfl | rfl) | rfl) | rfl) | rfl <;> exact absurd h (by decide)

theorem IsNumeric.ne_open (h : IsNumeric c) : c ≠ '(' := by
  rintro rfl
  rcases h with h | h | h <;> exact absurd h (by decide)

theorem IsNumeric.ne_close (h : IsNumeric c) : c ≠ ')' := by
  rintro rfl
  rcases h with h | h | h <;> exact absurd h (by decide)

theorem IsNumeric.isBlank (h : IsNumeric c) : Text.isBlank c = false := by
  rcases h with h | h | h
  · rcases Bool.or_eq_true_iff.1 h with h | h
    · cases beq_iff_eq.1 h
      rfl
    · cases beq_iff_eq.1 h
      rfl
  · exact Decimal.isBlank_of_isPointed h
  · exact Text.isBlank_of_isAlphanum (Text.isAlphanum_iff.2 (.inl h))

end Characters

section Numbers

variable {s : Sign} {body cs : List Char}

theorem isNumeric_sign_append (h : ∀ c ∈ body, IsNumeric c) : ∀ c ∈ s.text ++ body, IsNumeric c := by
  refine List.forall_mem_append.2 ⟨fun c hc => ?_, h⟩
  cases s with
  | absent => cases hc
  | plus => exact .sign (List.mem_singleton.1 hc ▸ rfl)
  | minus => exact .sign (List.mem_singleton.1 hc ▸ rfl)

theorem unbroken_sign_append (s : Sign) (hne : body ≠ []) (h : ∀ c ∈ body, IsBody c) :
    Unbroken (s.text ++ body) := by
  refine ⟨s.text, body, rfl, hne, fun c hc => ?_, fun c hc => (h c hc).opensOperand⟩
  cases s with
  | absent => cases hc
  | plus => exact List.mem_singleton.1 hc ▸ rfl
  | minus => exact List.mem_singleton.1 hc ▸ rfl

/-- A sign in front keeps a text in one piece. -/
theorem Unbroken.minus (h : Unbroken cs) : Unbroken ('-' :: cs) := by
  obtain ⟨signs, body, rfl, hne, hsigns, hbody⟩ := h
  exact ⟨'-' :: signs, body, rfl, hne, List.forall_mem_cons.2 ⟨rfl, hsigns⟩, hbody⟩

/-- What a number can be written as. -/
theorem exists_plain (x : Float) : ∃ (s : Sign) (body : List Char), plain x = s.text ++ body ∧
    body ≠ [] ∧ ∀ c ∈ body, IsBody c := by
  have hletters : ∀ {cs : List Char}, cs.all Char.isAlpha = true → ∀ c ∈ cs, IsBody c :=
    fun h c hc => .letter (List.all_eq_true.1 h c hc)
  have hwritten := Decimal.written_plain x
  generalize Binary64.parts x = parts, plain x = cs at hwritten
  cases hwritten with
  | nan => exact ⟨.absent, _, rfl, List.cons_ne_nil _ _, hletters rfl⟩
  | infinite negative => exact ⟨_, _, signed_eq negative _, List.cons_ne_nil _ _, hletters rfl⟩
  | zero negative =>
    exact ⟨_, _, signed_eq negative _, List.cons_ne_nil _ _, fun c hc =>
      .pointed (List.mem_singleton.1 hc ▸ rfl)⟩
  | finite negative exponent _ hchars hdigit =>
    refine ⟨_, _, signed_eq negative _, ?_, fun c hc => .pointed ?_⟩
    · obtain ⟨c, hc, -⟩ := hdigit
      exact List.ne_nil_of_mem hc
    · rw [isPointed, Bool.or_eq_true, beq_iff_eq]
      exact hchars c hc

theorem unbroken_plain (x : Float) : Unbroken (plain x) := by
  obtain ⟨s, body, heq, hne, hbody⟩ := exists_plain x
  exact heq ▸ unbroken_sign_append s hne hbody

/-- The text of a number evaluates to the number. -/
theorem flat_plain (x : Float) : flat (plain x) = x := by
  rw [flat_unbroken (unbroken_plain x), Decimal.float?_plain]
  rfl

theorem isNumeric_plain (x : Float) : ∀ c ∈ plain x, IsNumeric c := by
  obtain ⟨s, body, heq, -, hbody⟩ := exists_plain x
  rw [heq]
  exact isNumeric_sign_append fun c hc => .body (hbody c hc)

theorem not_mem_plain (x : Float) : ')' ∉ plain x := fun hmem =>
  (isNumeric_plain x _ hmem).ne_close rfl

end Numbers

/-! ### Whole texts -/

section Texts

variable {c : Char} {cs cs' ds ds' inside : List Char}

theorem Collapses.nil : Collapses [] [] := ⟨rfl, List.not_mem_nil⟩

theorem Collapses.append (h : Collapses cs cs') (h' : Collapses ds ds') :
    Collapses (cs ++ ds) (cs' ++ ds') :=
  ⟨collapse_append h.collapsed h'.collapsed, fun hmem =>
    (List.mem_append.1 hmem).elim h.closed h'.closed⟩

theorem Collapses.char (hopen : c ≠ '(') (hclose : c ≠ ')') (h : Collapses cs cs') :
    Collapses (c :: cs) (c :: cs') := by
  refine ⟨?_, fun hmem => (List.mem_cons.1 hmem).elim (hclose ·.symm) h.closed⟩
  rw [collapse_cons hopen, h.collapsed]
  rfl

/-- The texts of numbers have no groups. -/
theorem Collapses.of_numeric (h : ∀ c ∈ cs, IsNumeric c) : Collapses cs cs := by
  induction cs with
  | nil => exact .nil
  | cons c cs ih =>
    obtain ⟨hc, hcs⟩ := List.forall_mem_cons.1 h
    exact (ih hcs).char hc.ne_open hc.ne_close

/-- A group becomes the text of its value. -/
theorem Collapses.group (h : Collapses inside cs') :
    Collapses ('(' :: inside ++ [')']) (plain (flat cs')) := by
  refine ⟨?_, not_mem_plain _⟩
  have hclose : collapse [')'] = some [')'] := rfl
  rw [List.cons_append, collapse_group (collapse_append h.collapsed hclose) h.closed, List.append_nil]

/-- If the parentheses match, all groups can be replaced. -/
theorem Matched.collapses (h : Matched cs) : ∃ cs', Collapses cs cs' := by
  induction h with
  | nil => exact ⟨[], .nil⟩
  | char hopen hclose _ ih =>
    obtain ⟨cs', h⟩ := ih
    exact ⟨_, h.char hopen hclose⟩
  | nest _ _ ih ih' =>
    obtain ⟨inside', hinside⟩ := ih
    obtain ⟨cs', h⟩ := ih'
    refine ⟨plain (flat inside') ++ cs', ?_⟩
    have hall := hinside.group.append h
    rwa [List.append_assoc] at hall

/-- A text spells characters if they are what it has besides blanks. -/
def Spells (text : String) (cs : List Char) : Prop :=
  (text.toList.filter fun c => !Text.isBlank c) = cs

theorem Spells.of_numeric (h : ∀ c ∈ cs, IsNumeric c) : Spells (String.ofList cs) cs := by
  rw [Spells, String.toList_ofList, List.filter_eq_self]
  intro c hc
  rw [(h c hc).isBlank]
  rfl

theorem Spells.append {text text' : String} (h : Spells text cs) (h' : Spells text' ds) :
    Spells (text ++ text') (cs ++ ds) := by
  rw [Spells, String.toList_append, List.filter_append, h, h']

theorem flatten?_eq_some_iff : flatten? cs = some cs' ↔ Collapses cs cs' := by
  rw [flatten?]
  cases hcollapse : collapse cs with
  | none =>
    refine ⟨nofun, fun h => ?_⟩
    rw [h.collapsed] at hcollapse
    cases hcollapse
  | some left =>
    change (if left.contains ')' then none else some left) = some cs' ↔ _
    rw [Option.ite_none_left_eq_some, List.contains_iff_mem, Option.some.injEq]
    constructor
    · rintro ⟨hclosed, rfl⟩
      exact ⟨hcollapse, hclosed⟩
    · intro h
      cases hcollapse.symm.trans h.collapsed
      exact ⟨h.closed, rfl⟩

/-- The value of a text is that of what it collapses to. -/
theorem value_of_collapses {text : String} (hspells : Spells text cs) (h : Collapses cs cs') :
    value text = flat cs' := by
  rw [value, hspells, flatten?_eq_some_iff.2 h]

end Texts

end HandlerScript.Expression
