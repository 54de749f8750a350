import HandlerScript.Proofs.Document
import HandlerScript.Proofs.Effect.Choice
import HandlerScript.Proofs.Run.Ending
import HandlerScript.Proofs.Run.Passing
import HandlerScript.Proofs.Table
import HandlerScript.Session

/-! The names of variables.

    A reference trims the name in it before it looks for a variable, so only a variable with a tidy name
    can be read. Declarations, commands that write a variable and guarded blocks trim the name that they
    are given and do without a blank one. A `ForEach` does not: it takes the names of its two variables
    as they are. Sessions keep that every name in the store is tidy, or that one of their runs passed
    through a `ForEach` of the trees that took the name, in the world of that moment. -/

namespace HandlerScript

/-- No reference sees a variable whose name is not tidy. -/
theorem Scope.lookup?_set_untidy {name : String} (h : ¬ Text.Tidy name) (s : Scope) (value : Scalar)
    (inner : List Char) :
    { s with store := s.store.set name value }.lookup? inner = s.lookup? inner := by
  unfold lookup?
  split
  · rfl
  · dsimp only
    split
    · rfl
    · rename_i hne
      have htidy : Text.Tidy (String.ofList (Text.trimmed inner)) := by
        refine ⟨fun hempty => hne ?_, ?_⟩
        · rw [String.ofList_eq_empty_iff.1 hempty]
          rfl
        · rw [Text.trim, String.toList_ofList, Text.trimmed_trimmed]
      have hname : String.ofList (Text.trimmed inner) ≠ name := fun heq => h (heq ▸ htidy)
      have hproperty : { s with store := s.store.set name value }.property? (Text.trimmed inner) =
          s.property? (Text.trimmed inner) := rfl
      rw [hproperty, Store.get?, Store.set, Table.get?_insert, if_neg hname, Store.get?]

/-- The node occurs in one of the trees. -/
def Node.WithinSome (trees : List Node) (node : Node) : Prop := ∃ root ∈ trees, node.Within root

/-- The node is a `ForEach` that takes the name for one of its two variables when it starts in the
    scope. -/
def Node.TakesName (name : String) (s : Scope) (node : Node) : Prop :=
  Command.ofTag node.tag = .forEach ∧ (name = s.itemName node ∨ name = s.indexName node)

/-- The `ForEach` commands of the trees, when they take the name. -/
def loopsTaking (trees : List Node) (name : String) : Boundary := fun sender node w =>
  node.WithinSome trees ∧ node.TakesName name (w.scope sender)

/-- The name is tidy, or one of the runs passed through a `ForEach` of the trees that took it for one of
    its variables. -/
def NameFrom (trees : List Node) (runs : List Start) (name : String) : Prop :=
  Text.Tidy name ∨ ∃ r ∈ runs, r.Passes (loopsTaking trees name)

theorem NameFrom.mono {trees trees' : List Node} {runs runs' : List Start} {name : String}
    (h : NameFrom trees runs name) (htrees : trees ⊆ trees') (hruns : runs ⊆ runs') :
    NameFrom trees' runs' name := by
  refine h.imp id fun ⟨r, hr, hpasses⟩ => ⟨r, hruns hr, hpasses.mono ?_⟩
  rintro sender node w ⟨⟨root, hroot, hwithin⟩, htakes⟩
  exact ⟨⟨root, htrees hroot, hwithin⟩, htakes⟩

/-! ### Runs -/

/-- Effects that write only variables with names in `N` keep all names in the store in `N`. -/
theorem names_stable (N : String → Prop) :
    Stable (fun e => ∀ name, e.assigned? = some name → N name)
      (fun w => ∀ name, w.store.contains name = true → N name) where
  perform he hw hp name hname := by
    rcases World.perform_store hp with ⟨-, hstore⟩ | ⟨x, value, hx, hstore⟩
    · exact hw name (hstore ▸ hname)
    · rw [hstore] at hname
      rcases Table.contains_insert.1 hname with rfl | hname
      · exact he name hx
      · exact hw name hname
  log _ _ hw := hw
  pump hw := hw
  wait _ hw := hw

theorem errorVariable_tidy {limits : Limits} (h : Text.Tidy limits.errorVariable) (s : Scope)
    (node : Node) : Text.Tidy (errorVariable limits s node) := by
  unfold errorVariable
  cases hname : (s.attrOf? node ["errorVar", "errorVariable"]).bind Text.nonBlank? with
  | none => exact h
  | some name => exact Text.tidy_of_bind_nonBlank? hname

theorem target?_tidy {s : Scope} {node : Node} {name : String} (h : s.target? node = some name) :
    Text.Tidy name :=
  Text.tidy_of_bind_nonBlank? h

/-- A command of the trees writes no variable under a name that is not tidy, unless it is a loop that
    takes the name. -/
theorem assigned_ne_of_causes {limits : Limits} {trees : List Node} {sender : Option String}
    {node : Node} {w : World} {e : Effect} {name : String} (herror : Text.Tidy limits.errorVariable)
    (hname : ¬ Text.Tidy name) (hnode : node.WithinSome trees)
    (hloop : ¬ loopsTaking trees name sender node w) (h : node.Causes limits (w.scope sender) e) :
    ∀ x, e.assigned? = some x → x ≠ name := by
  rintro x hx rfl
  cases h with
  | effect moment => exact hname (target?_tidy (Command.target?_of_assigned? hx))
  | item value hc =>
    cases hx
    exact hloop ⟨hnode, hc, .inl rfl⟩
  | index value hc =>
    cases hx
    exact hloop ⟨hnode, hc, .inr rfl⟩
  | caught value hc =>
    cases hx
    exact hname (errorVariable_tidy herror _ node)

/-- A run of commands of the trees adds only names that are tidy, or that a loop of the trees takes on
    the way. -/
theorem nameFrom_of_result {limits : Limits} {trees : List Node} {r : Start}
    (herror : Text.Tidy limits.errorVariable) (hlimits : r.program.limits = limits)
    (hclosed : r.program.Closed (Node.WithinSome trees))
    (hcommands : ∀ c ∈ r.commands, c.WithinSome trees) {w : World} (hw : r.result.world? = some w)
    {name : String} (hname : w.store.contains name = true) :
    r.world.store.contains name = true ∨ NameFrom trees [r] name := by
  by_cases hold : r.world.store.contains name = true
  · exact .inl hold
  by_cases htidy : Text.Tidy name
  · exact .inr (.inl htidy)
  have hstart : ∀ x, r.world.store.contains x = true → x ≠ name := by
    rintro x hx rfl
    exact hold hx
  have hpasses : r.Passes (loopsTaking trees name) ∨ r.result.Meets
      (fun w => ∀ x, w.store.contains x = true → x ≠ name) (fun _ => True) True := by
    refine Start.passes_or_meets hclosed (names_stable (· ≠ name)) hcommands ?_ hstart
    intro node sender w e hnode _ hloop hcauses
    rw [hlimits] at hcauses
    exact assigned_ne_of_causes herror htidy hnode hloop hcauses
  rcases hpasses with hpasses | hmeets
  · exact .inr (.inr ⟨r, List.mem_singleton_self r, hpasses⟩)
  · exact absurd rfl (hmeets.of_world? hw name hname)

/-! ### Sessions -/

namespace Session

/-- The run of a command in a session. -/
def execution (s : Session) (depth : Nat) (sender : Option String) (node : Node) : Start :=
  ⟨s.program, depth, sender, [node], s.world⟩

/-- The run of a handler's commands in a session; a handler that is not registered has none. -/
def invocation (s : Session) (depth : Nat) (name : String) (sender : Option String) : Start :=
  ⟨s.program, depth, sender, ((s.registry.get? name).map Handler.body).getD [], s.world⟩

/-- The sessions that come about on a host, with the trees that were loaded or executed on the way and
    the runs that there were, each with the last one first. Meanwhile the host may change and time may
    pass. -/
inductive Reachable (limits : Limits) : List Node → List Start → Session → Prop
  | start (host : Host) (moment : Moment) (seed : Nat) :
      Reachable limits [] [] (.start host limits moment seed)
  | meanwhile {trees : List Node} {runs : List Start} {s : Session} (host : Host) (elapsed : Nat) :
      Reachable limits trees runs s → Reachable limits trees runs
        { s with world := { s.world with host := host, elapsed := elapsed } }
  | loadTree {trees : List Node} {runs : List Start} {s : Session} (root : Node) :
      Reachable limits trees runs s → Reachable limits (root :: trees) runs (s.loadTree root).2
  | loadSource {trees : List Node} {runs : List Start} {s s' : Session} {source : String} {root : Node}
      {d : Document} : Reachable limits trees runs s → Source.parse source.toList = .ok root →
      s.loadSource source = .ok (d, s') → Reachable limits (root :: trees) runs s'
  | execute {trees : List Node} {runs : List Start} {s : Session} {depth : Nat}
      {sender : Option String} {node : Node} {w : World} : Reachable limits trees runs s →
      (HandlerScript.execute s.program depth sender node s.world).world? = some w →
      Reachable limits (node :: trees) (s.execution depth sender node :: runs) { s with world := w }
  | invoke {trees : List Node} {runs : List Start} {s : Session} {depth : Nat} {name : String}
      {sender : Option String} {outcome : Outcome} {w : World} : Reachable limits trees runs s →
      HandlerScript.invoke s.program depth name sender s.world = some (outcome, w) →
      Reachable limits trees (s.invocation depth name sender :: runs) { s with world := w }

/-- What reachable sessions keep: their limits, names in the store that are tidy or come from loops that
    the runs passed through, and handlers whose commands stand within the trees. -/
structure Named (limits : Limits) (trees : List Node) (runs : List Start) (s : Session) : Prop where
  limits : s.program.limits = limits
  names : ∀ name, s.store.contains name = true → NameFrom trees runs name
  bodies : ∀ name h, s.registry.get? name = some h → ∀ c ∈ h.body, c.WithinSome trees

variable {limits : Limits} {trees : List Node} {runs : List Start} {s : Session}

theorem Named.cons (h : s.Named limits trees runs) (root : Node) :
    s.Named limits (root :: trees) runs where
  limits := h.limits
  names name hname := (h.names name hname).mono (List.subset_cons_self _ _) (List.Subset.refl _)
  bodies name handler hget c hc := by
    obtain ⟨tree, htree, hwithin⟩ := h.bodies name handler hget c hc
    exact ⟨tree, List.mem_cons_of_mem _ htree, hwithin⟩

theorem Named.closed (h : s.Named limits trees runs) : s.program.Closed (Node.WithinSome trees) where
  below := fun ⟨root, hroot, hn⟩ hc => ⟨root, hroot, hc.within.trans hn⟩
  body hget hc := h.bodies _ _ hget _ hc

/-- Loading a document whose declarations are those of a tree. -/
theorem Named.load (h : s.Named limits trees runs) {root : Node} {d : Document}
    (hvars : d.vars = Document.variablesIn root) (hhandlers : d.handlers = Document.handlersIn root) :
    (s.load d).Named limits (root :: trees) runs where
  limits := h.limits
  names name hname := by
    rcases contains_load hname with ⟨v, hv, rfl⟩ | hname
    · exact .inl (Document.tidy_of_mem_variablesIn root (hvars ▸ hv))
    · exact (h.cons root).names name hname
  bodies name handler hget c hc := by
    rcases get?_load hget with hmem | hget
    · have hbelow := Document.below_of_mem_handlersIn root (hhandlers ▸ hmem) hc
      exact ⟨root, List.mem_cons_self, hbelow.within⟩
    · exact (h.cons root).bodies name handler hget c hc

/-- Loading a source loads the declarations of its tree. -/
theorem loadSource_eq_ok {source : String} {root : Node} {x : Document × Session}
    (hparse : Source.parse source.toList = .ok root) (h : s.loadSource source = .ok x) :
    ∃ d, x.2 = s.load d ∧ d.vars = Document.variablesIn root ∧
      d.handlers = Document.handlersIn root := by
  rw [loadSource, Document.parse, hparse] at h
  cases h
  exact ⟨_, rfl, rfl, rfl⟩

/-- The store after an invocation is that of the run of the handler's commands. -/
theorem store_of_invoke {depth : Nat} {name : String} {sender : Option String} {outcome : Outcome}
    {w : World} (hw : HandlerScript.invoke s.program depth name sender s.world = some (outcome, w)) :
    ∃ w', (s.invocation depth name sender).result.world? = some w' ∧ w.store = w'.store := by
  unfold HandlerScript.invoke invokeWith at hw
  unfold Start.result invocation registry
  cases hget : s.program.registry.get? name with
  | none =>
    rw [hget] at hw
    cases hw
    exact ⟨s.world, rfl, rfl⟩
  | some handler =>
    rw [hget] at hw
    simp only [Option.map_some, Option.getD_some]
    cases hrun : runAll (HandlerScript.execute s.program depth sender) handler.body s.world with
    | done w' =>
      simp only [hrun] at hw
      cases hw
      exact ⟨_, rfl, rfl⟩
    | fault f w' =>
      simp only [hrun] at hw
      cases hw
      exact ⟨_, rfl, rfl⟩
    | tooDeep =>
      simp only [hrun] at hw
      cases hw

section Runs

variable (herror : Text.Tidy limits.errorVariable) (h : s.Named limits trees runs)

include herror h

/-- A run of commands of the trees in the session. -/
theorem Named.ran {r : Start} (hprogram : r.program = s.program) (hworld : r.world = s.world)
    (hcommands : ∀ c ∈ r.commands, c.WithinSome trees) {w w' : World}
    (hw : r.result.world? = some w') (hstore : w.store = w'.store) :
    Named limits trees (r :: runs) { s with world := w } where
  limits := h.limits
  names name hname := by
    have hname' : w'.store.contains name = true := hstore ▸ hname
    rcases nameFrom_of_result herror (hprogram ▸ h.limits) (hprogram ▸ h.closed) hcommands hw hname'
      with hold | hnew
    · rw [hworld] at hold
      exact (h.names name hold).mono (List.Subset.refl _) (List.subset_cons_self _ _)
    · exact hnew.mono (List.Subset.refl _) (List.cons_subset_cons r (List.nil_subset runs))
  bodies := h.bodies

theorem Named.execute {depth : Nat} {sender : Option String} {node : Node} {w : World}
    (hnode : node.WithinSome trees)
    (hw : (HandlerScript.execute s.program depth sender node s.world).world? = some w) :
    Named limits trees (s.execution depth sender node :: runs) { s with world := w } := by
  have hcommands : ∀ c ∈ (s.execution depth sender node).commands, c.WithinSome trees := by
    intro c hc
    rwa [List.mem_singleton.1 hc]
  have hresult : (s.execution depth sender node).result.world? = some w := by
    rwa [Start.result, execution, runAll_singleton]
  exact h.ran herror rfl rfl hcommands hresult rfl

theorem Named.invoke {depth : Nat} {name : String} {sender : Option String} {outcome : Outcome}
    {w : World} (hw : HandlerScript.invoke s.program depth name sender s.world = some (outcome, w)) :
    Named limits trees (s.invocation depth name sender :: runs) { s with world := w } := by
  have hcommands : ∀ c ∈ (s.invocation depth name sender).commands, c.WithinSome trees := by
    intro c hc
    unfold invocation at hc
    cases hget : s.registry.get? name with
    | none =>
      rw [hget] at hc
      cases hc
    | some handler =>
      rw [hget] at hc
      exact h.bodies name handler hget c hc
  obtain ⟨w', hw', hstore⟩ := store_of_invoke hw
  exact h.ran herror rfl rfl hcommands hw' hstore

end Runs

theorem Reachable.named (herror : Text.Tidy limits.errorVariable) (h : Reachable limits trees runs s) :
    s.Named limits trees runs := by
  induction h with
  | start host moment seed =>
    exact ⟨rfl, fun _ hname => (nomatch hname), fun _ _ hget => (nomatch hget)⟩
  | meanwhile host elapsed _ ih => exact ⟨ih.limits, ih.names, ih.bodies⟩
  | loadTree root _ ih => exact ih.load rfl rfl
  | loadSource _ hparse hload ih =>
    obtain ⟨d, rfl, hvars, hhandlers⟩ := loadSource_eq_ok hparse hload
    exact ih.load hvars hhandlers
  | execute _ hw ih =>
    exact (ih.cons _).execute herror ⟨_, List.mem_cons_self, .refl⟩ hw
  | invoke _ hw ih => exact ih.invoke herror hw

/-- Where the loops of the trees name their variables tidily in every scope, all names are tidy. -/
theorem Reachable.tidy_of_loops (herror : Text.Tidy limits.errorVariable)
    (h : Reachable limits trees runs s)
    (hloops : ∀ loop : Node, loop.WithinSome trees → Command.ofTag loop.tag = .forEach →
      ∀ s : Scope, Text.Tidy (s.itemName loop) ∧ Text.Tidy (s.indexName loop))
    {name : String} (hname : s.store.contains name = true) : Text.Tidy name := by
  rcases (h.named herror).names name hname with htidy | ⟨r, -, hpasses⟩
  · exact htidy
  · obtain ⟨sender, loop, w, hloop, hc, hitem | hindex⟩ := hpasses.exists
    · exact hitem ▸ (hloops loop hloop hc (w.scope sender)).1
    · exact hindex ▸ (hloops loop hloop hc (w.scope sender)).2

end Session

/-- In every session that comes about, each variable has a tidy name, or one of the runs passed through a
    `ForEach` of the trees that took the name for it. -/
theorem untidy_names_from_loops (limits : Limits) (herror : Text.Tidy limits.errorVariable)
    (trees : List Node) (runs : List Start) (s : Session) (h : s.Reachable limits trees runs)
    (name : String) (hname : s.store.contains name = true) : NameFrom trees runs name :=
  (h.named herror).names name hname

/-- A document with a variable that holds a text with blanks around it, and a handler that catches a
    fault and names the item of a loop after the variable. -/
def Node.guarded : Node where
  tag := "Document"
  children :=
    [{ tag := "Variable", attributes := Table.ofList [("name", " n "), ("value", " k ")] },
      { tag := "Handler", attributes := Table.ofList [("name", " Go ")]
        children :=
          [{ tag := "TryCatch", attributes := Table.ofList [("errorVar", " e ")]
             children := [{ tag := "Throw" }] },
           { tag := "ForEach", attributes := Table.ofList [("item", "\x7bn\x7d"), ("items", "a,b")] }] }]

/-- After the document is loaded and its handler is invoked, the names are trimmed but for that of the
    item, and the invocation passed through a loop of the document that took it. -/
theorem untidy_names_from_loops_guarded : ∃ (runs : List Start) (s : Session),
    s.Reachable {} [Node.guarded] runs ∧ s.store.vars.names = [" k ", "e", "index", "n"] ∧
    s.store.contains " k " = true ∧ NameFrom [Node.guarded] runs " k " ∧ ¬ Text.Tidy " k " ∧
    ∃ r ∈ runs, r.Passes (loopsTaking [Node.guarded] " k ") := by
  have hstart : (Session.start {} {} ⟨0, 0⟩ 0).Reachable {} [] [] := .start {} ⟨0, 0⟩ 0
  have hload := hstart.loadTree Node.guarded
  obtain ⟨w, hw, hnames, hname⟩ : ∃ w,
      invoke ((Session.start {} {} ⟨0, 0⟩ 0).loadTree Node.guarded).2.program 2 "Go" none
        ((Session.start {} {} ⟨0, 0⟩ 0).loadTree Node.guarded).2.world = some (.completed, w) ∧
      w.store.vars.names = [" k ", "e", "index", "n"] ∧ w.store.contains " k " = true :=
    ⟨_, rfl, rfl, rfl⟩
  have hreach := hload.invoke hw
  have hfrom := untidy_names_from_loops {} (by decide +kernel) [Node.guarded] _ _ hreach " k " hname
  have huntidy : ¬ Text.Tidy " k " := by decide +kernel
  exact ⟨_, _, hreach, hnames, hname, hfrom, huntidy, hfrom.resolve_left huntidy⟩

/-- A loop whose item goes to a variable with blanks around its name. -/
def Node.padded : Node :=
  { tag := "ForEach", attributes := Table.ofList [("item", " x "), ("items", "a")] }

/-- The loop leaves a variable whose name is not tidy. -/
theorem names_not_all_tidy :
    ¬ ∀ limits : Limits, Text.Tidy limits.errorVariable → ∀ trees runs s,
      Session.Reachable limits trees runs s → ∀ name, s.store.contains name = true →
        Text.Tidy name := by
  intro h
  obtain ⟨w, hw, hname⟩ : ∃ w,
      (execute (Session.start {} {} ⟨0, 0⟩ 0).program 1 none Node.padded
        (Session.start {} {} ⟨0, 0⟩ 0).world).world? = some w ∧
      w.store.contains " x " = true := ⟨_, rfl, rfl⟩
  have hreach := (Session.Reachable.start {} ⟨0, 0⟩ 0).execute hw
  have htidy : Text.Tidy " x " := h {} (by decide +kernel) [Node.padded] _ _ hreach " x " hname
  exact absurd htidy (by decide +kernel)

end HandlerScript
