import HandlerScript.Template

/-! Texts without references.

    A token begins with an opening brace, so a text without one is all plain characters and filling
    it in leaves it as it is. -/

namespace HandlerScript

namespace Template

theorem pieces_plain : ∀ {cs : List Char}, '\x7b' ∉ cs → pieces cs = cs.map .char
  | [], _ => rfl
  | c :: cs, h => by
    obtain ⟨hc, hcs⟩ := not_or.1 fun h' => h (List.mem_cons.2 h')
    have htail : scan none cs = cs.map .char := pieces_plain hcs
    rw [pieces, scan, if_neg (Ne.symm hc), htail, List.map_cons]

theorem fill_plain (lookup? : List Char → Option (List Char)) {cs : List Char} (h : '\x7b' ∉ cs) :
    fill lookup? cs = cs := by
  rw [fill, pieces_plain h, List.flatMap_map]
  exact List.flatMap_singleton' cs

end Template

namespace Scope

theorem resolve_plain (s : Scope) {text : String} (h : '\x7b' ∉ text.toList) :
    s.resolve text = text := by
  rw [resolve, Template.fill_plain _ h, String.ofList_toList]

/-- An attribute without an opening brace resolves to its text. -/
theorem attr?_plain (s : Scope) {node : Node} {name : String} {given : Option String}
    (hgiven : node.attr? name = given) (h : ∀ text ∈ given, '\x7b' ∉ text.toList) :
    s.attr? node name = given := by
  rw [attr?, hgiven]
  cases given with
  | none => rfl
  | some text => rw [Option.map_some, s.resolve_plain (h text rfl)]

/-- An attribute without an opening brace means the same in every scope. -/
theorem attrOf?_plain (s : Scope) {node : Node} {names : List String}
    (h : ∀ text, node.attrOf? names = some text → '\x7b' ∉ text.toList) :
    s.attrOf? node names = node.attrOf? names := by
  rw [attrOf?]
  cases htext : node.attrOf? names with
  | none => rfl
  | some text => rw [Option.map_some, s.resolve_plain (h text htext)]

/-- The variable that is named without an opening brace. -/
theorem target?_plain (s : Scope) {node : Node} {var name : String}
    (hvar : node.attrOf? ["var", "name"] = some var) (h : '\x7b' ∉ var.toList)
    (hname : Text.nonBlank? var = some name) : s.target? node = some name := by
  have hplain : ∀ text, node.attrOf? ["var", "name"] = some text → '\x7b' ∉ text.toList := by
    intro text htext
    cases hvar.symm.trans htext
    exact h
  rw [target?, s.attrOf?_plain hplain, hvar, Option.bind_some, hname]

end Scope

end HandlerScript
