import HandlerScript.Proofs.Condition.Truth
import HandlerScript.Proofs.Effect.ReadBack
import HandlerScript.Proofs.Number.ReadBack

/-! Copying a variable.

    A reference to a variable is replaced by the text of its value, and what a `SetVar` makes of the text
    is inferred from it, or made for the kind that is asked for. The text of a truth value or of an
    integer has no blanks, and it is read as this value and nothing before it: the words of truth values
    are letters, integers are signs and digits, and reading an integer undoes writing it. So such a
    variable is copied as it is, whatever blanks there are around the reference. -/

namespace HandlerScript

open Condition (reference)

/-! ### Blanks around a text -/

theorem Text.trimmed_blanks {front back : List Char} (hfront : ∀ c ∈ front, isBlank c = true)
    (hback : ∀ c ∈ back, isBlank c = true) (cs : List Char) :
    trimmed (front ++ cs ++ back) = trimmed cs := by
  have hend : ∀ ds, trimmed (ds ++ back) = trimmed ds := by
    intro ds
    induction back using List.reverseRecOn with
    | nil => rw [List.append_nil]
    | append_singleton back c ih =>
      rw [← List.append_assoc, trimmed_concat (hback c (by simp))]
      exact ih fun d hd => hback d (List.mem_append_left _ hd)
  rw [hend]
  induction front with
  | nil => rfl
  | cons c front ih =>
    rw [List.cons_append, trimmed_cons (hfront c List.mem_cons_self)]
    exact ih fun d hd => hfront d (List.mem_cons_of_mem c hd)

namespace Template

/-- A token with blanks around it is replaced, and the blanks stay. -/
theorem fill_padded {front back inner cs : List Char} {lookup? : List Char → Option (List Char)}
    (hfront : ∀ c ∈ front, Text.isBlank c = true) (hback : ∀ c ∈ back, Text.isBlank c = true)
    (hinner : braces inner = []) (hlookup : lookup? inner = some cs) :
    fill lookup? (front ++ '{' :: (inner ++ '}' :: back)) = front ++ cs ++ back := by
  have hnoblank : ∀ {ds : List Char}, (∀ c ∈ ds, Text.isBlank c = true) → '{' ∉ ds :=
    fun hds hmem => absurd (hds _ hmem) (by decide)
  have hpieces : ∀ ds : List Char, '{' ∉ front → pieces (front ++ ds) = front.map .char ++ pieces ds := by
    intro ds hopen
    induction front with
    | nil => rfl
    | cons c front ih =>
      rw [List.mem_cons, not_or] at hopen
      rw [List.cons_append, pieces_plain_cons (Ne.symm hopen.1), List.map_cons, List.cons_append,
        ih (fun d hd => hfront d (List.mem_cons_of_mem c hd)) hopen.2]
  have hplain : ∀ ds : List Char, (ds.map Piece.char).flatMap (Piece.filled lookup?) = ds := fun ds => by
    rw [List.flatMap_map]
    exact List.flatMap_singleton' ds
  rw [fill, hpieces _ (hnoblank hfront), pieces_token hinner, pieces_plain (hnoblank hback),
    List.flatMap_append, List.flatMap_cons, hplain, hplain, Piece.filled, hlookup, Option.getD_some,
    List.append_assoc]

end Template

/-! ### Values read back from their texts -/

namespace Scalar

/-- Truth values and integers. -/
inductive IsExact : Scalar → Prop
  | bool (b : Bool) : IsExact (.bool b)
  | int (n : Int64) : IsExact (.int n)

/-- The names of the kinds that truth values and integers are of. -/
def kindWords : Scalar → List String
  | .bool _ => ["bool", "boolean"]
  | .int _ => ["int", "integer", "long"]
  | _ => []

section Integers

variable {n : Int64} {c : Char}

theorem digit_or_minus (h : c ∈ Decimal.intDigits n.toInt) : Decimal.isDigit c = true ∨ c = '-' := by
  rw [Decimal.intDigits_eq, Decimal.signed] at h
  split at h
  · exact (List.mem_cons.1 h).symm.imp_left (Decimal.isDigit_of_mem_digits c)
  · exact .inl (Decimal.isDigit_of_mem_digits c h)

theorem class_of_mem_intDigits (h : c ∈ Decimal.intDigits n.toInt) :
    Text.isBlank c = false ∧ c.isAlpha = false := by
  rcases digit_or_minus h with hdigit | rfl
  · exact Decimal.class_of_isDigit hdigit
  · exact ⟨rfl, rfl⟩

theorem intDigits_ne_nil (n : Int64) : Decimal.intDigits n.toInt ≠ [] := by
  intro hnil
  have hread := Decimal.int64?_intDigits n
  rw [hnil] at hread
  cases hread

/-- No word of letters is the text of an integer. -/
theorem sameLetters_intText (n : Int64) (word : String) (hword : word.toList.all Char.isLower = true)
    (hlower : Text.lower word = word) : Text.sameLetters (Decimal.intText n.toInt) word = false := by
  rw [Bool.eq_false_iff, Ne, Text.sameLetters_iff, hlower]
  intro hsame
  obtain ⟨c, cs, hcs⟩ := List.exists_cons_of_ne_nil (intDigits_ne_nil n)
  have hc : c ∈ Decimal.intDigits n.toInt := hcs ▸ List.mem_cons_self
  have halpha := Text.isAlpha_of_lower hword hsame c hc
  rw [(class_of_mem_intDigits hc).2] at halpha
  cases halpha

end Integers

section Reading

variable {text : String} {value : Scalar}

theorem IsExact.trimmed_text (h : value.IsExact) :
    Text.trimmed value.text.toList = value.text.toList := by
  refine Text.trimmed_eq_self ?_
  cases h with
  | bool b =>
    have hblank : (text (.bool b)).toList.all (!Text.isBlank ·) = true := by cases b <;> decide
    simpa using hblank
  | int n =>
    rw [Scalar.text, Decimal.intText, String.toList_ofList]
    exact fun c hc => (class_of_mem_intDigits hc).1

/-- A text that is the text of a value but for blanks around it is inferred to be the value. -/
theorem IsExact.infer_eq (h : value.IsExact) (htext : Text.trim text = value.text) :
    infer text = value := by
  cases h with
  | bool b =>
    have htrue : Text.sameLetters "true" "true" = true := by decide
    have hfalse : Text.sameLetters "false" "true" = false ∧
        Text.sameLetters "false" "false" = true := by decide
    cases b <;> simp [infer, htext, Scalar.text, htrue, hfalse]
  | int n =>
    have hint : Decimal.int64? (Decimal.intText n.toInt).toList = some n := by
      rw [Decimal.intText, String.toList_ofList, Decimal.int64?_intDigits]
    have htrue := sameLetters_intText n "true" (by decide) (by decide)
    have hfalse := sameLetters_intText n "false" (by decide) (by decide)
    simp [infer, htext, Scalar.text, htrue, hfalse, hint]

/-- Large and small letters name the same kinds. -/
theorem ofName?_of_sameLetters {kind word : String} (hword : word.toList.all Char.isLower = true)
    (hself : Text.lower word = word) (h : Text.sameLetters kind word = true) :
    Kind.ofName? kind = Kind.ofName? word := by
  have htrim : ∀ {name : String}, Text.lower name = word → Text.trim name = name := by
    intro name hname
    have halpha : ∀ c ∈ name.toList, c.isAlpha = true :=
      Text.isAlpha_of_lower hword (by rwa [String.ofList_toList])
    rw [Text.trim, Text.trimmed_eq_self fun c hc =>
      Text.isBlank_of_isAlphanum (Text.isAlphanum_iff.2 (.inl (halpha c hc))), String.ofList_toList]
  have hlower : Text.lower kind = word := (Text.sameLetters_iff.1 h).trans hself
  rw [Kind.ofName?, Kind.ofName?, htrim hlower, htrim hself, hlower, hself]

/-- The names of kinds are small letters. -/
theorem lower_kindWords {word : String} (hword : word ∈ value.kindWords) :
    word.toList.all Char.isLower = true ∧ Text.lower word = word := by
  have hbool : ∀ word ∈ ["bool", "boolean"], word.toList.all Char.isLower = true ∧
      Text.lower word = word := by decide
  have hint : ∀ word ∈ ["int", "integer", "long"], word.toList.all Char.isLower = true ∧
      Text.lower word = word := by decide
  cases value with
  | bool b => exact hbool word hword
  | int n => exact hint word hword
  | float x => cases hword
  | str text => cases hword

/-- A text that is the text of a value but for blanks around it stands for the value in its kind. -/
theorem IsExact.typed_eq (h : value.IsExact) (htext : Text.trim text = value.text) {kind word : String}
    (hword : word ∈ value.kindWords) (hkind : Text.sameLetters kind word = true) :
    typed text kind = value := by
  obtain ⟨hlower, hself⟩ := lower_kindWords hword
  have hsame := ofName?_of_sameLetters hlower hself hkind
  cases h with
  | bool b =>
    have hname : Kind.ofName? kind = some .truth := by
      rw [hsame]
      rcases List.mem_pair.1 hword with rfl | rfl <;> decide
    have htruth : textTruth text = b := by
      have hfalse : Text.sameLetters "true" "false" = false ∧
        Text.sameLetters "false" "false" = true := by decide
      cases b <;> simp [textTruth, htext, Scalar.text, hfalse]
    simp only [typed, hname, ofKind, htruth]
  | int n =>
    have hname : Kind.ofName? kind = some .integer := by
      simp only [kindWords, List.mem_cons, List.not_mem_nil, or_false] at hword
      rw [hsame]
      rcases hword with rfl | rfl | rfl <;> decide
    have hint : Decimal.int64? (Text.trimmed text.toList) = some n := by
      have htrimmed : Text.trimmed text.toList = Decimal.intDigits n.toInt :=
        String.ofList_injective htext
      rw [htrimmed, Decimal.int64?_intDigits]
    simp only [typed, hname, ofKind, hint, Option.getD_some]

end Reading

end Scalar

/-! ### Commands -/

/-- A command that writes a variable with one reference as its text, blanks around it apart. -/
structure Node.Copies (n : Node) (source var : String) : Prop where
  var : n.attrOf? ["var", "name"] = some var
  value : ∃ front back, front.all Text.isBlank = true ∧ back.all Text.isBlank = true ∧
    n.attr? "value" = some (String.ofList (front ++ (reference source).toList ++ back))

/-- A command that makes a value of its text in a way that suits the value: `SetVar` infers it, and
    both `SetVar` and `Set` make a value of a kind that is named to them, in large or small letters. -/
inductive Node.Suits (n : Node) (value : Scalar) : Prop
  | inferred (tag : n.hasTag "SetVar" = true) (kind : n.attr? "type" = none)
  | typed {kind word : String} (tag : n.hasTag "SetVar" = true ∨
      n.hasTag "Set" = true ∧ n.attr? "target" = none)
    (named : n.attr? "type" = some kind) (hword : word ∈ value.kindWords)
    (hkind : Text.sameLetters kind word = true)

section Commands

variable {s : Scope} {n : Node} {source var name : String} {value : Scalar}

/-- The text of a copy is the text of the value, blanks around it apart. -/
theorem Node.Copies.trim_attrText (h : n.Copies source var) (hsource : IsVariable source)
    (hstored : s.store.get? source = some value) (hexact : value.IsExact) :
    Text.trim (s.attrText n "value") = value.text := by
  obtain ⟨front, back, hfront, hback, hvalue⟩ := h.value
  rw [List.all_eq_true] at hfront hback
  have hlookup : s.lookup? source.toList = some value.text.toList := by
    rw [hsource.lookup?, hstored, Option.map_some]
  have hfill := Template.fill_padded hfront hback hsource.braces hlookup
  rw [Scope.attrText, Scope.attr?, hvalue, Option.map_some, Option.getD_some, Scope.resolve,
    String.toList_ofList, Condition.toList_reference]
  rw [List.append_assoc, List.cons_append, List.append_assoc, List.singleton_append, hfill, Text.trim,
    String.toList_ofList, Text.trimmed_blanks hfront hback, hexact.trimmed_text, String.ofList_toList]

/-- What the command settles on. -/
theorem Node.Copies.effect_eq (h : n.Copies source var) (hsuits : n.Suits value)
    (hsource : IsVariable source) (hstored : s.store.get? source = some value)
    (hexact : value.IsExact) (hvar : '\x7b' ∉ var.toList) (hname : Text.nonBlank? var = some name) :
    n.hasTag "SetVar" = true ∧ Effect.setVar s n = .assign name value ∨
    n.hasTag "Set" = true ∧ Effect.set s n = .assign name value := by
  have htext := h.trim_attrText hsource hstored hexact
  have htarget : s.target? n = some name := Scope.target?_plain _ h.var hvar hname
  cases hsuits with
  | inferred tag kind =>
    have hkind : s.attr? n "type" = none := by rw [Scope.attr?, kind, Option.map_none]
    refine .inl ⟨tag, ?_⟩
    simp only [Effect.setVar, Effect.onTarget, htarget, hkind, hexact.infer_eq htext]
  | @typed given word tag named hword hgiven =>
    obtain ⟨hlower, hself⟩ := Scalar.lower_kindWords hword
    have hplain : '\x7b' ∉ given.toList := fun hmem => by
      have hsame := (Text.sameLetters_iff.1 hgiven).trans hself
      cases Text.isAlpha_of_lower hlower (by rwa [String.ofList_toList]) _ hmem
    have hkind : s.attr? n "type" = some given := Scope.attr?_plain _ named (by simpa using hplain)
    have hvalue := hexact.typed_eq htext hword hgiven
    refine tag.imp (fun hsetVar => ⟨hsetVar, ?_⟩) fun hset => ⟨hset.1, ?_⟩
    · simp only [Effect.setVar, Effect.onTarget, htarget, hkind, hvalue]
    · have hnone : s.attr? n "target" = none := by rw [Scope.attr?, hset.2, Option.map_none]
      simp only [Effect.set, htarget, hnone, hkind, hvalue]

end Commands

/-- A truth value or an integer is copied as it is: the command succeeds, writes nothing but the
    variable, and this holds the same value as the other. -/
theorem copy_keeps_value (p : Program) (depth : Nat) (sender : Option String) (w : World)
    {n : Node} {source var name : String} {value : Scalar} (hsource : IsVariable source)
    (hstored : w.store.get? source = some value) (hexact : value.IsExact)
    (hvar : '\x7b' ∉ var.toList) (hname : Text.nonBlank? var = some name)
    (hcopies : n.Copies source var) (hsuits : n.Suits value) :
    execute p (depth + 1) sender n w = .done (w.set name value) ∧
      (w.set name value).store.get? name = some value := by
  have hstored' : (w.scope sender).store.get? source = some value := hstored
  refine ⟨?_, (Table.get?_insert _ _ _ name).trans (if_pos rfl)⟩
  rcases hcopies.effect_eq hsuits hsource hstored' hexact hvar hname with ⟨htag, heffect⟩ | ⟨htag, heffect⟩
  all_goals
    rw [execute_tagged htag rfl Command.noConfusion]
    exact congrArg w.perform heffect

/-- Copies a variable, with blanks around the reference. -/
def Node.interpolating : Node where
  tag := "SET"
  attributes := Table.ofList [("var", " copy "), ("value", "\t\x7bleast\x7d\n"), ("type", "InTeGer")]

/-- A world with the least integer in it. -/
def World.least : World where
  store := { vars := Table.ofList [("least", .int Int64.minValue)] }

/-- The least integer is copied. -/
theorem copy_keeps_value_least :
    IsVariable "least" ∧ Text.nonBlank? " copy " = some "copy" ∧
      Node.interpolating.Copies "least" " copy " ∧ Node.interpolating.Suits (.int Int64.minValue) ∧
      execute {} 1 none .interpolating .least = .done (World.least.set "copy" (.int Int64.minValue)) ∧
      (World.least.set "copy" (.int Int64.minValue)).store.get? "copy" =
        some (.int Int64.minValue) := by
  have hsource : IsVariable "least" := ⟨by decide, by decide, by decide, by decide⟩
  have hname : Text.nonBlank? " copy " = some "copy" := by decide +kernel
  have hvar : Node.interpolating.attr? "var" = some " copy " := Node.attr?_ofList rfl rfl
  have hcopies : Node.interpolating.Copies "least" " copy " :=
    { var := by rw [Node.attrOf?, List.findSome?_cons, hvar]
      value := ⟨['\t'], ['\n'], rfl, rfl, Node.attr?_ofList rfl (by decide +kernel)⟩ }
  have htarget : Node.interpolating.attr? "target" = none := by decide +kernel
  have hword : "integer" ∈ (Scalar.int Int64.minValue).kindWords := by simp [Scalar.kindWords]
  have hsuits : Node.interpolating.Suits (.int Int64.minValue) :=
    .typed (.inr ⟨by decide, htarget⟩) (Node.attr?_ofList rfl rfl) hword (by decide +kernel)
  exact ⟨hsource, hname, hcopies, hsuits, copy_keeps_value {} 0 none .least hsource rfl (.int _)
    (by decide +kernel) hname hcopies hsuits⟩

end HandlerScript
