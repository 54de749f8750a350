import HandlerScript.Proofs.Node.Within
import HandlerScript.Proofs.Table
import HandlerScript.Proofs.Text.Trim
import HandlerScript.Session

/-! What documents declare, and what loading them enters.

    A declaration is a node of the tree that is not inside another one; it gives its name, trimmed and
    not blank. The commands of a declared handler stand below the root, as they are. Loading a document
    enters its variables into the store and its handlers into the registry, in order. -/

namespace HandlerScript

theorem Variable.tidy_of_ofNode? {node : Node} {v : Variable} (h : Variable.ofNode? node = some v) :
    Text.Tidy v.name := by
  obtain ⟨name, hname, rfl⟩ := Option.map_eq_some_iff.1 h
  exact Text.tidy_of_bind_nonBlank? hname

theorem Handler.tidy_of_ofNode? {node : Node} {h : Handler} (hh : Handler.ofNode? node = some h) :
    Text.Tidy h.name := by
  obtain ⟨name, hname, rfl⟩ := Option.map_eq_some_iff.1 hh
  exact Text.tidy_of_bind_nonBlank? hname

theorem Handler.body_of_ofNode? {node : Node} {h : Handler} (hh : Handler.ofNode? node = some h) :
    h.body = node.children := by
  obtain ⟨name, -, rfl⟩ := Option.map_eq_some_iff.1 hh
  rfl

namespace Document

theorem variablesInAll_eq (ns : List Node) : variablesInAll ns = ns.flatMap variablesIn := by
  induction ns with
  | nil => rfl
  | cons n ns ih => rw [variablesInAll, ih, List.flatMap_cons]

theorem handlersInAll_eq (ns : List Node) : handlersInAll ns = ns.flatMap handlersIn := by
  induction ns with
  | nil => rfl
  | cons n ns ih => rw [handlersInAll, ih, List.flatMap_cons]

/-- A node declares a variable, or a handler, or what its children declare. -/
theorem variablesIn_eq (node : Node) : variablesIn node =
    if declaresVariable node then (Variable.ofNode? node).toList
    else if declaresHandler node then []
    else node.children.flatMap variablesIn := by
  obtain ⟨tag, attributes, text, children⟩ := node
  rw [variablesIn, variablesInAll_eq]

theorem handlersIn_eq (node : Node) : handlersIn node =
    if declaresVariable node then []
    else if declaresHandler node then (Handler.ofNode? node).toList
    else node.children.flatMap handlersIn := by
  obtain ⟨tag, attributes, text, children⟩ := node
  rw [handlersIn, handlersInAll_eq]

/-- Declared variables have tidy names. -/
theorem tidy_of_mem_variablesIn : ∀ (root : Node) {v : Variable}, v ∈ variablesIn root →
    Text.Tidy v.name := by
  refine Node.induction_children fun root ih => ?_
  intro v hv
  rw [variablesIn_eq] at hv
  split at hv
  · exact Variable.tidy_of_ofNode? (Option.mem_toList.1 hv)
  · split at hv
    · cases hv
    · obtain ⟨c, hc, hv⟩ := List.mem_flatMap.1 hv
      exact ih c hc hv

/-- The commands of a declared handler stand below the root. -/
theorem below_of_mem_handlersIn : ∀ (root : Node) {h : Handler} {c : Node}, h ∈ handlersIn root →
    c ∈ h.body → c.Below root := by
  refine Node.induction_children fun root ih => ?_
  intro h c hh hc
  rw [handlersIn_eq] at hh
  split at hh
  · cases hh
  · split at hh
    · rw [Handler.body_of_ofNode? (Option.mem_toList.1 hh)] at hc
      exact Node.below_of_mem hc
    · obtain ⟨m, hm, hh⟩ := List.mem_flatMap.1 hh
      exact Node.below_iff.2 ⟨m, hm, (ih m hm hh hc).within⟩

end Document

/-! ### Loading -/

theorem Registry.handlers_registerAll : ∀ (hs : List Handler) (r : Registry),
    (r.registerAll hs).handlers = r.handlers.insertAll (hs.map fun h => (h.name, h))
  | [], _ => rfl
  | h :: hs, r => handlers_registerAll hs (r.register h)

theorem Session.vars_setAll : ∀ (vs : List Variable) (w : World),
    (vs.foldl (fun w v => w.set v.name v.value) w).store.vars =
      w.store.vars.insertAll (vs.map fun v => (v.name, v.value))
  | [], _ => rfl
  | v :: vs, w => vars_setAll vs (w.set v.name v.value)

/-- A variable was declared by the document that was loaded, or was there before. -/
theorem Session.contains_load {s : Session} {d : Document} {name : String}
    (h : (s.load d).store.contains name = true) :
    (∃ v ∈ d.vars, v.name = name) ∨ s.store.contains name = true := by
  obtain ⟨value, hvalue⟩ := Option.isSome_iff_exists.1 h
  have hvars : (s.load d).store.vars = _ := vars_setAll d.vars s.world
  rw [hvars] at hvalue
  rcases Table.mem_or_get?_of_insertAll hvalue with hmem | hget
  · obtain ⟨v, hv, heq⟩ := List.mem_map.1 hmem
    cases heq
    exact .inl ⟨v, hv, rfl⟩
  · exact .inr (Option.isSome_iff_exists.2 ⟨value, hget⟩)

/-- A handler was declared by the document that was loaded, or was there before. -/
theorem Session.get?_load {s : Session} {d : Document} {name : String} {h : Handler}
    (hget : (s.load d).registry.get? name = some h) :
    h ∈ d.handlers ∨ s.registry.get? name = some h := by
  have hhandlers : (s.load d).registry.handlers = _ :=
    Registry.handlers_registerAll d.handlers s.registry
  rw [Registry.get?, hhandlers] at hget
  rcases Table.mem_or_get?_of_insertAll hget with hmem | hget
  · obtain ⟨h', hh', heq⟩ := List.mem_map.1 hmem
    cases heq
    exact .inl hh'
  · exact .inr hget

end HandlerScript
