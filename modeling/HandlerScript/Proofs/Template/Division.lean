import HandlerScript.Proofs.Template
import Mathlib.Data.List.Infix

/-! How a text divides into tokens and plain characters.

    A token is a pair of braces with no brace between them, and such pairs never overlap, so a text
    divides in one way only: into all those pairs and the characters around them. The scanner meets a
    text in one of four ways. It is empty; it begins with a plain character; it begins with a token; or
    it begins with an opening brace whose next brace is no closing one, which stays as it is. What is
    said here of texts goes by induction along these four. -/

namespace HandlerScript

namespace Template

open List (filter_eq_cons_iff filter_eq_nil_iff)

def isBrace (c : Char) : Bool := c == '{' || c == '}'

/-- The braces of a text, in order. -/
def braces (cs : List Char) : List Char := cs.filter isBrace

/-- A text as pieces: its tokens have no brace inside, and among its plain characters no pair of
    braces is left with none between them. -/
structure Divides (cs : List Char) (ps : List Piece) : Prop where
  written : ps.flatMap Piece.written = cs
  inner : ∀ inner, .token inner ∈ ps → braces inner = []
  spent : ∀ inner, braces inner = [] → ¬ ('{' :: (inner ++ ['}'])).map Piece.char <:+: ps

section Braces

variable {c : Char} {cs inner : List Char}

theorem isBrace_eq_false_iff : isBrace c = false ↔ c ≠ '{' ∧ c ≠ '}' := by
  simp [isBrace]

theorem braces_append (a b : List Char) : braces (a ++ b) = braces a ++ braces b :=
  List.filter_append ..

theorem braces_cons_of_not (h : isBrace c = false) (cs : List Char) : braces (c :: cs) = braces cs :=
  List.filter_cons_of_neg (by simp [h])

theorem braces_cons (h : isBrace c = true) (cs : List Char) : braces (c :: cs) = c :: braces cs :=
  List.filter_cons_of_pos h

theorem braces_eq_nil_iff : braces cs = [] ↔ ∀ c ∈ cs, isBrace c = false := by
  simp [braces, filter_eq_nil_iff]

theorem braces_cons_eq_nil_iff : braces (c :: cs) = [] ↔ isBrace c = false ∧ braces cs = [] := by
  rw [braces_eq_nil_iff, braces_eq_nil_iff, List.forall_mem_cons]

theorem head?_braces_token (h : braces inner = []) (cs : List Char) :
    (braces (inner ++ '}' :: cs)).head? = some '}' := by
  rw [braces_append, h, List.nil_append, braces_cons rfl, List.head?_cons]

theorem braces_braced (cs : List Char) :
    braces ('{' :: (cs ++ ['}'])) = ('{' :: braces cs) ++ ['}'] := by
  rw [braces_cons rfl, braces_append]
  rfl

/-- A text whose first brace closes begins with the inside of a token. -/
theorem exists_closing (h : (braces cs).head? = some '}') :
    ∃ inner rest, cs = inner ++ '}' :: rest ∧ braces inner = [] := by
  obtain ⟨more, hmore⟩ := List.head?_eq_some_iff.1 h
  obtain ⟨inner, rest, hcs, hinner, -, -⟩ := filter_eq_cons_iff.1 hmore
  exact ⟨inner, rest, hcs, filter_eq_nil_iff.2 hinner⟩

end Braces

/-! ### Four ways to meet a text -/

section Scan

theorem scan_closing (rest : List Char) : ∀ {inner : List Char} (acc : List Char), braces inner = [] →
    scan (some acc) (inner ++ '}' :: rest) = .token (acc.reverse ++ inner) :: scan none rest
  | [], acc, _ => by
    rw [List.nil_append, scan, if_pos rfl, List.append_nil]
  | c :: inner, acc, h => by
    obtain ⟨hc, hinner⟩ := braces_cons_eq_nil_iff.1 h
    obtain ⟨hopen, hclose⟩ := isBrace_eq_false_iff.1 hc
    rw [List.cons_append, scan, if_neg hclose, if_neg hopen, scan_closing rest _ hinner,
      List.reverse_cons, List.append_assoc, List.singleton_append]

theorem scan_opening : ∀ {cs : List Char} (acc : List Char), (braces cs).head? ≠ some '}' →
    scan (some acc) cs = unmatched acc ++ scan none cs
  | [], acc, _ => by rw [scan, scan, List.append_nil]
  | c :: cs, acc, h => by
    by_cases hopen : c = '{'
    · subst hopen
      rfl
    · by_cases hclose : c = '}'
      · subst hclose
        exact absurd rfl h
      · have hc : isBrace c = false := isBrace_eq_false_iff.2 ⟨hopen, hclose⟩
        rw [braces_cons_of_not hc] at h
        have hstep : scan (some acc) (c :: cs) = scan (some (c :: acc)) cs := by
          rw [scan, if_neg hclose, if_neg hopen]
        have hplain : scan none (c :: cs) = .char c :: scan none cs := by rw [scan, if_neg hopen]
        rw [hstep, scan_opening (c :: acc) h, hplain]
        simp [unmatched]

end Scan

section Pieces

variable {c : Char} {cs inner : List Char}

theorem pieces_plain_cons (h : c ≠ '{') (cs : List Char) : pieces (c :: cs) = .char c :: pieces cs := by
  rw [pieces, scan, if_neg h, pieces]

theorem pieces_token (h : braces inner = []) (cs : List Char) :
    pieces ('{' :: (inner ++ '}' :: cs)) = .token inner :: pieces cs :=
  scan_closing cs [] h

theorem pieces_opening (h : (braces cs).head? ≠ some '}') :
    pieces ('{' :: cs) = .char '{' :: pieces cs :=
  scan_opening [] h

/-- What holds of the empty text, and passes over a plain character, a token and an opening brace that
    begins no token, holds of every text. -/
theorem induction_pieces {P : List Char → Prop} (nil : P [])
    (plain : ∀ c cs, c ≠ '{' → P cs → P (c :: cs))
    (token : ∀ inner cs, braces inner = [] → P cs → P ('{' :: (inner ++ '}' :: cs)))
    (opening : ∀ cs, (braces cs).head? ≠ some '}' → P cs → P ('{' :: cs)) : ∀ cs, P cs
  | [] => nil
  | c :: cs => by
    by_cases hc : c = '{'
    · subst hc
      by_cases hclose : (braces cs).head? = some '}'
      · obtain ⟨inner, rest, hcs, hinner⟩ := exists_closing hclose
        have hlength : rest.length < cs.length := by
          rw [hcs, List.length_append, List.length_cons]
          omega
        rw [hcs]
        exact token inner rest hinner (induction_pieces nil plain token opening rest)
      · exact opening cs hclose (induction_pieces nil plain token opening cs)
    · exact plain c cs hc (induction_pieces nil plain token opening cs)
termination_by cs => cs.length
decreasing_by all_goals simp only [List.length_cons]; omega

end Pieces

/-! ### The one division -/

/-- Pieces whose first brace closes begin with plain characters up to it. -/
theorem exists_closing_pieces {ps : List Piece}
    (h : (braces (ps.flatMap Piece.written)).head? = some '}') :
    ∃ inner, braces inner = [] ∧ (inner ++ ['}']).map Piece.char <+: ps := by
  induction ps with
  | nil => cases h
  | cons p ps ih =>
    cases p with
    | token inner => cases h
    | char c =>
      rw [List.flatMap_cons, Piece.written, List.singleton_append] at h
      cases hc : isBrace c with
      | true =>
        rw [braces_cons hc, List.head?_cons, Option.some.injEq] at h
        exact ⟨[], rfl, by simp [h]⟩
      | false =>
        rw [braces_cons_of_not hc] at h
        obtain ⟨inner, hinner, hprefix⟩ := ih h
        exact ⟨c :: inner, braces_cons_eq_nil_iff.2 ⟨hc, hinner⟩,
          List.cons_prefix_cons.2 ⟨rfl, hprefix⟩⟩

theorem divides_nil : Divides [] [] where
  written := rfl
  inner _ h := by cases h
  spent _ _ h := by cases List.infix_nil.1 h

theorem divides_cons_iff {p : Piece} {ps : List Piece} {cs : List Char} : Divides cs (p :: ps) ↔
    ∃ rest, cs = p.written ++ rest ∧ (∀ inner, p = .token inner → braces inner = []) ∧
      (p = .char '{' → (braces rest).head? ≠ some '}') ∧ Divides rest ps := by
  constructor
  · intro h
    refine ⟨ps.flatMap Piece.written, h.written.symm, ?_, ?_, rfl, ?_, ?_⟩
    · rintro inner rfl
      exact h.inner inner List.mem_cons_self
    · rintro rfl hclose
      obtain ⟨inner, hinner, hprefix⟩ := exists_closing_pieces hclose
      exact h.spent inner hinner (List.cons_prefix_cons.2 ⟨rfl, hprefix⟩).isInfix
    · exact fun inner hmem => h.inner inner (List.mem_cons_of_mem p hmem)
    · exact fun inner hinner hinfix => h.spent inner hinner (List.infix_cons hinfix)
  · rintro ⟨rest, rfl, hp, hopening, h⟩
    refine ⟨by rw [List.flatMap_cons, h.written], ?_, ?_⟩
    · intro inner hmem
      rcases List.mem_cons.1 hmem with heq | hmem
      · exact hp inner heq.symm
      · exact h.inner inner hmem
    · intro inner hinner hinfix
      rcases List.infix_cons_iff.1 hinfix with hprefix | hinfix
      · -- a pair that begins here would close at the first brace of what follows
        obtain ⟨heq, more, hps⟩ := List.cons_prefix_cons.1 hprefix
        have hrest : rest = inner ++ '}' :: more.flatMap Piece.written := by
          rw [← h.written, ← hps]
          simp [List.flatMap_map, Piece.written]
        exact hopening heq.symm (hrest ▸ head?_braces_token hinner _)
      · exact h.spent inner hinner hinfix

theorem divides_pieces (cs : List Char) : Divides cs (pieces cs) := by
  induction cs using induction_pieces with
  | nil => exact divides_nil
  | plain c cs hc ih =>
    rw [pieces_plain_cons hc]
    refine divides_cons_iff.2 ⟨cs, rfl, ?_, ?_, ih⟩
    · rintro _ ⟨⟩
    · rintro ⟨⟩
      exact absurd rfl hc
  | token inner cs hinner ih =>
    rw [pieces_token hinner]
    refine divides_cons_iff.2 ⟨cs, by simp [Piece.written], ?_, ?_, ih⟩
    · rintro _ ⟨⟩
      exact hinner
    · rintro ⟨⟩
  | opening cs hcs ih =>
    rw [pieces_opening hcs]
    refine divides_cons_iff.2 ⟨cs, rfl, ?_, fun _ => hcs, ih⟩
    rintro _ ⟨⟩

/-- There is no other division than the one that the scanner makes. -/
theorem Divides.eq_pieces {ps : List Piece} {cs : List Char} (h : Divides cs ps) :
    ps = pieces cs := by
  induction ps generalizing cs with
  | nil =>
    cases h.written
    rfl
  | cons p ps ih =>
    obtain ⟨rest, rfl, hp, hopening, hrest⟩ := divides_cons_iff.1 h
    rw [ih hrest]
    cases p with
    | token inner =>
      have hinner : braces inner = [] := hp inner rfl
      simpa [Piece.written] using (pieces_token hinner rest).symm
    | char c =>
      by_cases hc : c = '{'
      · subst hc
        exact (pieces_opening (hopening rfl)).symm
      · exact (pieces_plain_cons hc rest).symm

/-! ### Texts one behind the other -/

section Append

variable {a b : List Char}

/-- No token begins in the first text and ends in the second. -/
def Apart (a b : List Char) : Prop :=
  ¬ ((braces a).getLast? = some '{' ∧ (braces b).head? = some '}')

theorem Apart.of_append (front : List Char) (h : Apart (front ++ a) b) : Apart a b := by
  rintro ⟨hlast, hhead⟩
  exact h ⟨by rw [braces_append, List.getLast?_append, hlast, Option.some_or], hhead⟩

theorem pieces_append (h : Apart a b) : pieces (a ++ b) = pieces a ++ pieces b := by
  induction a using induction_pieces with
  | nil => rfl
  | plain c cs hc ih =>
    rw [List.cons_append, pieces_plain_cons hc, pieces_plain_cons hc,
      ih (Apart.of_append [c] h), List.cons_append]
  | token inner cs hinner ih =>
    have hcs : Apart cs b := Apart.of_append ('{' :: (inner ++ ['}'])) (by simpa using h)
    rw [List.cons_append, List.append_assoc, List.cons_append, pieces_token hinner,
      pieces_token hinner, ih hcs, List.cons_append]
  | opening cs hcs ih =>
    have hboth : (braces (cs ++ b)).head? ≠ some '}' := by
      rw [braces_append, List.head?_append]
      cases hbraces : braces cs with
      | nil =>
        intro hhead
        exact h ⟨by rw [braces_cons rfl, hbraces]; rfl, hhead⟩
      | cons d ds =>
        rw [hbraces] at hcs
        exact hcs
    rw [List.cons_append, pieces_opening hboth, pieces_opening hcs,
      ih (Apart.of_append ['{'] h), List.cons_append]

variable (lookup? : List Char → Option (List Char))

theorem fill_append (h : Apart a b) : fill lookup? (a ++ b) = fill lookup? a ++ fill lookup? b := by
  rw [fill, pieces_append h, List.flatMap_append, fill, fill]

theorem fill_congr {lookup? lookup?' : List Char → Option (List Char)}
    (h : ∀ inner, .token inner ∈ pieces a → lookup?' inner = lookup? inner) :
    fill lookup?' a = fill lookup? a := by
  refine List.flatMap_congr fun p hp => ?_
  cases p with
  | char c => rfl
  | token inner => rw [Piece.filled, Piece.filled, h inner hp]

end Append

end Template

/-! ### Resolved texts -/

/-- A text divides in one way into tokens and plain characters. It is resolved by putting the values
    of its tokens in their places, so a text without an opening brace stays as it is, only the look-ups
    of the tokens matter, and two texts are resolved one behind the other unless a token begins in the
    first and ends in the second. -/
theorem resolve_replaces_tokens (s : Scope) (text : String) :
    (∃! ps, Template.Divides text.toList ps) ∧
    (∀ ps, Template.Divides text.toList ps →
      s.resolve text = String.ofList (ps.flatMap (Template.Piece.filled s.lookup?))) ∧
    ('{' ∉ text.toList → s.resolve text = text) ∧
    (∀ s' : Scope, (∀ ps inner, Template.Divides text.toList ps → .token inner ∈ ps →
      s'.lookup? inner = s.lookup? inner) → s'.resolve text = s.resolve text) ∧
    ∀ more : String, ¬ ((Template.braces text.toList).getLast? = some '{' ∧
      (Template.braces more.toList).head? = some '}') →
      s.resolve (text ++ more) = s.resolve text ++ s.resolve more := by
  have hdivides := Template.divides_pieces text.toList
  refine ⟨⟨_, hdivides, fun ps h => h.eq_pieces⟩, ?_, s.resolve_plain, ?_, ?_⟩
  · intro ps h
    rw [h.eq_pieces]
    rfl
  · intro s' hlookup
    rw [Scope.resolve, Template.fill_congr fun inner => hlookup _ inner hdivides]
    rfl
  · intro more h
    rw [Scope.resolve, String.toList_append, Template.fill_append _ h, String.ofList_append]
    rfl

/-- A scope in which the value of one variable looks like a reference to another. -/
def Scope.nested : Scope where
  store := { vars := Table.ofList [("x", .str "\x7by\x7d"), ("y", .int 1)] }
  host := {}
  sender := none

/-- The inner pair is replaced and its value is not read again; braces without a partner stay. -/
theorem resolve_replaces_tokens_nested :
    Template.Divides "\x7b\x7bx\x7d\x7d \x7by".toList
      [.char '{', .token ['x'], .char '}', .char ' ', .char '{', .char 'y'] ∧
    Scope.nested.resolve "\x7b\x7bx\x7d\x7d \x7by" = "\x7b\x7by\x7d\x7d \x7by" ∧
    Scope.nested.resolve ("\x7b\x7bx\x7d\x7d \x7by" ++ "\x7by\x7d") =
      Scope.nested.resolve "\x7b\x7bx\x7d\x7d \x7by" ++ Scope.nested.resolve "\x7by\x7d" := by
  have hpieces : Template.pieces "\x7b\x7bx\x7d\x7d \x7by".toList =
      [.char '{', .token ['x'], .char '}', .char ' ', .char '{', .char 'y'] := by decide +kernel
  have hdivides := hpieces ▸ Template.divides_pieces "\x7b\x7bx\x7d\x7d \x7by".toList
  obtain ⟨-, hresolve, -, -, happend⟩ :=
    resolve_replaces_tokens .nested "\x7b\x7bx\x7d\x7d \x7by"
  refine ⟨hdivides, (hresolve _ hdivides).trans (by decide +kernel), happend _ (by decide +kernel)⟩

end HandlerScript
