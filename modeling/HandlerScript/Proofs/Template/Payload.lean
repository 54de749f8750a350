import HandlerScript.Proofs.Json.Layout
import HandlerScript.Proofs.Template.Division
import HandlerScript.Proofs.Text.Trim

/-! JSON data with references in it.

    The braces of objects look like those of references. In a text of the JSON grammar braces come in
    pairs, so an object with braces inside opens and closes nothing but itself; one without has no
    members, or has a key in quotes, and neither is looked up. So only references are replaced. The
    grammar is stated on pieces: a reference is a token and all else is plain, braces of objects
    included. -/

namespace HandlerScript

namespace Template

/-- Characters as pieces. -/
def plain (cs : List Char) : List Piece := cs.map .char

/-- The text of pieces. -/
def text (ps : List Piece) : List Char := ps.flatMap Piece.written

/-! ### The grammar -/

namespace Payload

/-- A character of a string: itself, an escape, or its code in hexadecimal digits. -/
inductive StringChar : List Char → Prop
  | itself {c : Char} : 0x20 ≤ c.toNat → c ≠ '"' → c ≠ '\\' → StringChar [c]
  | escape {c : Char} : c ∈ ['"', '\\', '/', 'b', 'f', 'n', 'r', 't'] → StringChar ['\\', c]
  | code {a b c d : Char} : (∀ x ∈ [a, b, c, d], (Hexadecimal.digit? x).isSome = true) →
      StringChar ['\\', 'u', a, b, c, d]

/-- A string in its quotes. -/
def IsString (cs : List Char) : Prop :=
  ∃ units : List (List Char), (∀ u ∈ units, StringChar u) ∧ cs = '"' :: (units.flatten ++ ['"'])

def IsDigits (cs : List Char) : Prop := cs ≠ [] ∧ ∀ c ∈ cs, Decimal.isDigit c = true

/-- A sign, an integer without leading zeros, a fraction and an exponent. -/
inductive IsNumber : List Char → Prop
  | intro {sign whole fraction exponent : List Char} : (sign = [] ∨ sign = ['-']) →
      (whole = ['0'] ∨ IsDigits whole ∧ whole.head? ≠ some '0') →
      (fraction = [] ∨ ∃ ds, IsDigits ds ∧ fraction = '.' :: ds) →
      (exponent = [] ∨ ∃ e ∈ ['e', 'E'], ∃ s ∈ [[], ['+'], ['-']], ∃ ds, IsDigits ds ∧
        exponent = e :: (s ++ ds)) →
      IsNumber (sign ++ (whole ++ (fraction ++ exponent)))

/-- The parts of a payload. An element is a value with blanks around it. -/
inductive Part where
  | value
  | element
  | items
  | member
  | members

end Payload

open Json (Blanks)
open Payload

/-- The texts of the JSON grammar, as pieces. In place of a value a reference may stand, and strings
    have no braces in them. -/
inductive Payload : Payload.Part → List Piece → Prop
  | word {cs : List Char} : cs ∈ ["null".toList, "true".toList, "false".toList] →
      Payload .value (plain cs)
  | number {cs : List Char} : IsNumber cs → Payload .value (plain cs)
  | string {cs : List Char} : IsString cs → braces cs = [] → Payload .value (plain cs)
  | reference {name : List Char} : braces name = [] → isReference name = true →
      Payload .value [.token name]
  | emptyArray {b : List Char} : Blanks b → Payload .value (plain ('[' :: (b ++ [']'])))
  | array {ps : List Piece} : Payload .items ps → Payload .value (.char '[' :: (ps ++ [.char ']']))
  | emptyObject {b : List Char} : Blanks b → Payload .value (plain ('{' :: (b ++ ['}'])))
  | object {ps : List Piece} : Payload .members ps →
      Payload .value (.char '{' :: (ps ++ [.char '}']))
  | element {b b' : List Char} {ps : List Piece} : Blanks b → Payload .value ps → Blanks b' →
      Payload .element (plain b ++ (ps ++ plain b'))
  | lastItem {ps : List Piece} : Payload .element ps → Payload .items ps
  | item {ps qs : List Piece} : Payload .element ps → Payload .items qs →
      Payload .items (ps ++ .char ',' :: qs)
  | member {b b' key : List Char} {ps : List Piece} : Blanks b → IsString key → braces key = [] →
      Blanks b' → Payload .element ps → Payload .member (plain (b ++ (key ++ (b' ++ [':']))) ++ ps)
  | lastMember {ps : List Piece} : Payload .member ps → Payload .members ps
  | members {ps qs : List Piece} : Payload .member ps → Payload .members qs →
      Payload .members (ps ++ .char ',' :: qs)

/-! ### Balanced pieces -/

section Fills

variable {lookup? : List Char → Option (List Char)} {cs name : List Char} {ps qs : List Piece}

theorem text_append (ps qs : List Piece) : text (ps ++ qs) = text ps ++ text qs :=
  List.flatMap_append

theorem text_plain (cs : List Char) : text (plain cs) = cs := by
  rw [text, plain, List.flatMap_map]
  exact List.flatMap_singleton' cs

theorem filled_plain (lookup? : List Char → Option (List Char)) (cs : List Char) :
    (plain cs).flatMap (Piece.filled lookup?) = cs := by
  rw [plain, List.flatMap_map]
  exact List.flatMap_singleton' cs

/-- The text of pieces is filled in piece by piece, and it begins with no brace that closes and ends
    with none that opens, so that it can stand beside others. -/
structure Fills (lookup? : List Char → Option (List Char)) (ps : List Piece) : Prop where
  filled : fill lookup? (text ps) = ps.flatMap (Piece.filled lookup?)
  head : (braces (text ps)).head? ≠ some '}'
  last : (braces (text ps)).getLast? ≠ some '{'

theorem fills_plain (h : braces cs = []) : Fills lookup? (plain cs) where
  filled := by
    have hopen : '{' ∉ cs := fun hmem => by cases braces_eq_nil_iff.1 h _ hmem
    rw [text_plain, filled_plain, fill_plain lookup? hopen]
  head := by simp [text_plain, h]
  last := by simp [text_plain, h]

theorem fills_char {c : Char} (h : isBrace c = false) : Fills lookup? [.char c] :=
  fills_plain (braces_cons_of_not h [])

theorem text_token (name : List Char) : text [.token name] = '{' :: (name ++ ['}']) := by
  simp [text, Piece.written]

theorem text_braced (ps : List Piece) :
    text (.char '{' :: (ps ++ [.char '}'])) = '{' :: (text ps ++ ['}']) := by
  simp [text, Piece.written]

theorem fills_token (h : braces name = []) : Fills lookup? [.token name] where
  filled := by
    have hpieces : pieces ('{' :: (name ++ ['}'])) = [.token name] := pieces_token h []
    rw [text_token, fill, hpieces]
  head := by
    rw [text_token, braces_braced]
    simp
  last := by
    rw [text_token, braces_braced, List.getLast?_concat]
    simp

theorem Fills.append (h : Fills lookup? ps) (h' : Fills lookup? qs) : Fills lookup? (ps ++ qs) where
  filled := by
    rw [text_append, fill_append lookup? fun hboth => h.last hboth.1, h.filled, h'.filled,
      List.flatMap_append]
  head := by
    rw [text_append, braces_append, List.head?_append, Ne, Option.or_eq_some_iff]
    rintro (hhead | ⟨-, hhead⟩)
    · exact h.head hhead
    · exact h'.head hhead
  last := by
    rw [text_append, braces_append, List.getLast?_append, Ne, Option.or_eq_some_iff]
    rintro (hlast | ⟨-, hlast⟩)
    · exact h'.last hlast
    · exact h.last hlast

/-- A pair of braces around balanced pieces stays, if what is in it is not looked up. -/
theorem Fills.braced (h : Fills lookup? ps) (hnone : braces (text ps) = [] → lookup? (text ps) = none) :
    Fills lookup? (.char '{' :: (ps ++ [.char '}'])) where
  filled := by
    have hfilled : (.char '{' :: (ps ++ [.char '}'])).flatMap (Piece.filled lookup?) =
        '{' :: (fill lookup? (text ps) ++ ['}']) := by
      rw [h.filled]
      simp [Piece.filled]
    rw [text_braced, hfilled]
    cases hbraces : braces (text ps) with
    | nil =>
      have hpieces : pieces ('{' :: (text ps ++ ['}'])) = [.token (text ps)] := pieces_token hbraces []
      have hopen : '{' ∉ text ps := fun hmem => by cases braces_eq_nil_iff.1 hbraces _ hmem
      rw [fill_plain lookup? hopen, fill, hpieces]
      simp [Piece.filled, Piece.written, hnone hbraces]
    | cons d ds =>
      have hopening : (braces (text ps ++ ['}'])).head? ≠ some '}' := by
        have hhead := h.head
        rw [hbraces] at hhead
        rw [braces_append, hbraces]
        exact hhead
      have hopens : fill lookup? ('{' :: (text ps ++ ['}'])) = '{' :: fill lookup? (text ps ++ ['}']) := by
        rw [fill, pieces_opening hopening]
        rfl
      rw [hopens, fill_append lookup? fun hboth => h.last hboth.1]
      rfl
  head := by
    rw [text_braced, braces_braced]
    simp
  last := by
    rw [text_braced, braces_braced, List.getLast?_concat]
    simp

end Fills

/-! ### Payloads are filled in -/

section Words

variable {cs : List Char}

/-- A text of a class of characters to which the braces do not belong. -/
theorem braces_of_class {p : Char → Bool} (hopen : p '{' = false) (hclose : p '}' = false)
    (h : ∀ c ∈ cs, p c = true) : braces cs = [] := by
  refine braces_eq_nil_iff.2 fun c hc => isBrace_eq_false_iff.2 ⟨?_, ?_⟩
  · rintro rfl
    exact Bool.false_ne_true (hopen.symm.trans (h _ hc))
  · rintro rfl
    exact Bool.false_ne_true (hclose.symm.trans (h _ hc))

theorem isBlank_of_json {c : Char} (h : Json.isBlank c = true) : Text.isBlank c = true := by
  simp only [Json.isBlank, Bool.or_eq_true, beq_iff_eq] at h
  rcases h with ((rfl | rfl) | rfl) | rfl <;> rfl

theorem braces_blanks {b : List Char} (h : Blanks b) : braces b = [] :=
  braces_of_class (p := Json.isBlank) rfl rfl h

theorem Payload.IsDigits.braces (h : IsDigits cs) : braces cs = [] :=
  braces_of_class (p := Decimal.isDigit) rfl rfl h.2

theorem Payload.IsNumber.braces (h : IsNumber cs) : braces cs = [] := by
  obtain ⟨hsign, hwhole, hfraction, hexponent⟩ := h
  simp only [braces_append, List.append_eq_nil_iff]
  refine ⟨?_, ?_, ?_, ?_⟩
  · rcases hsign with rfl | rfl <;> rfl
  · rcases hwhole with rfl | ⟨hwhole, -⟩
    · rfl
    · exact hwhole.braces
  · rcases hfraction with rfl | ⟨ds, hds, rfl⟩
    · rfl
    · rw [braces_cons_of_not rfl, hds.braces]
  · rcases hexponent with rfl | ⟨e, he, s, hs, ds, hds, rfl⟩
    · rfl
    · have hmark : isBrace e = false := by
        rcases List.mem_pair.1 he with rfl | rfl <;> rfl
      have hsigns : ∀ s ∈ [[], ['+'], ['-']], Template.braces s = [] := by decide
      rw [braces_cons_of_not hmark, braces_append, hsigns s hs, hds.braces, List.nil_append]

end Words

end Template

namespace Scope

variable {s : Scope} {inner : List Char}

/-- What has a quote in it is not looked up. -/
theorem lookup?_of_quote (s : Scope) (h : '"' ∈ inner) : s.lookup? inner = none := by
  have hdata : inner.any Template.isDataChar = true := List.any_eq_true.2 ⟨'"', h, rfl⟩
  rw [lookup?, Template.isReference, hdata]
  rfl

/-- Nothing but blanks is not looked up. -/
theorem lookup?_of_blanks (s : Scope) (h : ∀ c ∈ inner, Text.isBlank c = true) :
    s.lookup? inner = none := by
  have htrimmed : Text.trimmed inner = [] := by
    rw [Text.trimmed, List.dropWhile_eq_nil_iff.2 h]
    rfl
  rw [lookup?, htrimmed]
  split <;> rfl

end Scope

namespace Template

variable {part : Payload.Part} {ps : List Piece}

theorem Payload.IsString.quote_mem {cs : List Char} (h : IsString cs) : '"' ∈ cs := by
  obtain ⟨units, -, rfl⟩ := h
  exact List.mem_cons_self

/-- Every member has a key, which stands in quotes. -/
theorem Payload.quote_mem (h : Payload part ps) (hpart : part = .member ∨ part = .members) :
    '"' ∈ text ps := by
  induction h with
  | member _ hkey _ _ _ _ =>
    rw [text_append, text_plain]
    have hquote := hkey.quote_mem
    simp [hquote]
  | lastMember _ ih => exact ih (.inl rfl)
  | members _ _ ih _ =>
    rw [text_append]
    exact List.mem_append_left _ (ih (.inl rfl))
  | _ => simp at hpart

theorem Payload.fills (s : Scope) (h : Payload part ps) : Fills s.lookup? ps := by
  have hcomma : ∀ {qs}, Fills s.lookup? qs → Fills s.lookup? (.char ',' :: qs) :=
    fun hqs => (fills_char rfl).append hqs
  induction h with
  | word hcs =>
    exact fills_plain ((by decide : ∀ w ∈ ["null".toList, "true".toList, "false".toList],
      braces w = []) _ hcs)
  | number hcs => exact fills_plain hcs.braces
  | string _ hcs => exact fills_plain hcs
  | reference hname _ => exact fills_token hname
  | emptyArray hb =>
    refine fills_plain ?_
    rw [braces_cons_of_not rfl, braces_append, braces_blanks hb]
    rfl
  | array _ ih =>
    exact (fills_char rfl).append (ih.append (fills_char rfl))
  | @emptyObject b hb =>
    have hblank : s.lookup? (text (plain b)) = none := by
      rw [text_plain]
      exact s.lookup?_of_blanks fun c hc => isBlank_of_json (hb c hc)
    have hbraced := (fills_plain (braces_blanks hb)).braced fun _ => hblank
    simpa [plain] using hbraced
  | object hmembers ih =>
    exact ih.braced fun _ => s.lookup?_of_quote (hmembers.quote_mem (.inr rfl))
  | element hb _ hb' ih =>
    exact (fills_plain (braces_blanks hb)).append (ih.append (fills_plain (braces_blanks hb')))
  | lastItem _ ih => exact ih
  | item _ _ ih ih' => exact ih.append (hcomma ih')
  | member hb _ hkey hb' _ ih =>
    refine (fills_plain ?_).append ih
    rw [braces_append, braces_append, braces_append, braces_blanks hb, hkey, braces_blanks hb']
    rfl
  | lastMember _ ih => exact ih
  | members _ _ ih ih' => exact ih.append (hcomma ih')

end Template

/-- In a text of the JSON grammar with references in it, each reference is replaced by its value if it
    has one, and everything else is left as it is written. -/
theorem payloads_keep_shape (s : Scope) (ps : List Template.Piece)
    (h : Template.Payload .element ps) :
    s.resolve (String.ofList (Template.text ps)) =
      String.ofList (ps.flatMap (Template.Piece.filled s.lookup?)) ∧
    ((∀ name, .token name ∉ ps) →
      s.resolve (String.ofList (Template.text ps)) = String.ofList (Template.text ps)) := by
  have hresolve : s.resolve (String.ofList (Template.text ps)) =
      String.ofList (ps.flatMap (Template.Piece.filled s.lookup?)) := by
    rw [Scope.resolve, String.toList_ofList, (h.fills s).filled]
  refine ⟨hresolve, fun hnone => ?_⟩
  rw [hresolve, Template.text]
  congr 1
  refine List.flatMap_congr fun p hp => ?_
  cases p with
  | char c => rfl
  | token name => exact absurd hp (hnone name)

/-- A scope with a value for `x` and none for `y`. -/
def Scope.half : Scope where
  store := { vars := Table.ofList [("x", .str "\x7by\x7d")] }
  host := {}
  sender := none

/-- An object with a reference, and with a list of an empty object and a reference without a value. -/
theorem payloads_keep_shape_half : ∃ ps, Template.Payload .element ps ∧
    Template.text ps = "\x7b\"a\": \x7bx\x7d, \"b\": [\x7b \x7d, \x7by\x7d]\x7d".toList ∧
    Scope.half.resolve (String.ofList (Template.text ps)) =
      "\x7b\"a\": \x7by\x7d, \"b\": [\x7b \x7d, \x7by\x7d]\x7d" := by
  have hkey : ∀ c ∈ ['a', 'b'], Template.Payload.IsString ['"', c, '"'] := by
    intro c hc
    refine ⟨[[c]], fun u hu => ?_, rfl⟩
    rw [List.mem_singleton.1 hu]
    rcases List.mem_pair.1 hc with rfl | rfl <;> exact .itself (by decide) (by decide) (by decide)
  have hspace : Json.Blanks [' '] := by simp [Json.Blanks, Json.isBlank]
  have hnone := Json.blanks_nil
  have hx : Template.Payload .value [.token ['x']] := .reference rfl rfl
  have hy : Template.Payload .value [.token ['y']] := .reference rfl rfl
  have hitems := (Template.Payload.element hnone (.emptyObject hspace) hnone).item
    (.lastItem (.element hspace hy hnone))
  have hfirst := Template.Payload.member hnone (hkey 'a' (by decide)) rfl hnone
    (.element hspace hx hnone)
  have hsecond := Template.Payload.member hspace (hkey 'b' (by decide)) rfl hnone
    (.element hspace (.array hitems) hnone)
  have hpayload := Template.Payload.element hnone (.object (hfirst.members (.lastMember hsecond))) hnone
  refine ⟨_, hpayload, by decide +kernel, (payloads_keep_shape .half _ hpayload).1.trans ?_⟩
  decide +kernel

end HandlerScript
