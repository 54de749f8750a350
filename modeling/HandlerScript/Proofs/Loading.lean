import HandlerScript.Proofs.Document

/-! Loading documents one after the other.

    Loading a document enters its variables into one table and its handlers, under their names, into
    another. Entering more pairs goes on from what was entered, so a sequence of documents is loaded
    like the one document that lists all their declarations: of each name the last declaration counts,
    and every other name keeps what it had. Nothing but loading changes the registry, so each handler
    is found under its own name. A source is read as a whole before anything of it is loaded. -/

namespace HandlerScript

namespace Document

/-- The declarations of two documents, and the fingerprint of the later one that has any. -/
def append (d d' : Document) : Document where
  vars := d.vars ++ d'.vars
  handlers := d.handlers ++ d'.handlers
  version := d'.version.or d.version

/-- The declarations of documents in their order, and the fingerprint of the last one that has any. -/
def join (ds : List Document) : Document where
  vars := ds.flatMap (·.vars)
  handlers := ds.flatMap (·.handlers)
  version := (ds.filterMap (·.version)).getLast?

theorem join_cons (d : Document) (ds : List Document) : join (d :: ds) = d.append (join ds) := by
  have hversion : ((d :: ds).filterMap (·.version)).getLast? =
      (ds.filterMap (·.version)).getLast?.or d.version := by
    rw [← List.singleton_append, List.filterMap_append, List.getLast?_append]
    cases hd : d.version <;> simp [hd]
  rw [join, hversion]
  rfl

end Document

namespace Registry

/-- Each handler is found under its own name. -/
def Filed (r : Registry) : Prop := ∀ name h, r.get? name = some h → h.name = name

theorem get?_registerAll (r : Registry) (hs : List Handler) (name : String) :
    (r.registerAll hs).get? name = (hs.filter (·.name == name)).getLast?.or (r.get? name) := by
  rw [get?, handlers_registerAll, Table.get?_insertAll_map, Option.map_id']
  rfl

theorem mem_names_registerAll {r : Registry} {hs : List Handler} {name : String} :
    name ∈ (r.registerAll hs).names ↔ name ∈ hs.map (·.name) ++ r.names := by
  rw [names, handlers_registerAll, Table.mem_names_insertAll, List.map_map, List.mem_append]
  rfl

theorem Filed.registerAll {r : Registry} (h : r.Filed) (hs : List Handler) :
    (r.registerAll hs).Filed := by
  intro name handler hget
  rw [get?_registerAll, Option.or_eq_some_iff] at hget
  rcases hget with hlast | ⟨-, hget⟩
  · have hmem := List.mem_filter.1 (List.mem_of_getLast? hlast)
    exact beq_iff_eq.1 hmem.2
  · exact h name handler hget

end Registry

namespace Session

/-! ### One document -/

theorem setAll_eq (vs : List Variable) (w : World) :
    vs.foldl (fun w v => w.set v.name v.value) w =
      { w with store := ⟨w.store.vars.insertAll (vs.map fun v => (v.name, v.value))⟩ } := by
  induction vs generalizing w with
  | nil => rfl
  | cons v vs ih => exact ih (w.set v.name v.value)

/-- Loading enters pairs into two tables and changes nothing else but the fingerprint. -/
theorem load_eq (s : Session) (d : Document) : s.load d =
    { program := { s.program with
        registry := ⟨s.registry.handlers.insertAll (d.handlers.map fun h => (h.name, h))⟩ }
      world := { s.world with
        store := ⟨s.store.vars.insertAll (d.vars.map fun v => (v.name, v.value))⟩ }
      version := d.version.or s.version } := by
  rw [load, setAll_eq, Option.orElse_eq_or, registry, ← Registry.handlers_registerAll]
  rfl

theorem get?_store_load (s : Session) (d : Document) (name : String) :
    (s.load d).store.get? name =
      ((d.vars.filter (·.name == name)).getLast?.map (·.value)).or (s.store.get? name) := by
  rw [load_eq]
  exact Table.get?_insertAll_map Variable.name Variable.value d.vars s.store.vars name

theorem load_load (s : Session) (d d' : Document) : (s.load d).load d' = s.load (d.append d') := by
  simp only [load, Document.append, Registry.registerAll, List.foldl_append, Option.orElse_eq_or,
    Option.or_assoc]

theorem load_load_self (s : Session) (d : Document) : (s.load d).load d = s.load d := by
  have hversion : d.version.or (d.version.or s.version) = d.version.or s.version := by
    rw [← Option.or_assoc, Option.or_self]
  rw [load_eq (s.load d), load_eq s]
  simp only [registry, store, Table.insertAll_insertAll_self, hversion]

/-! ### Sequences of documents -/

/-- Loads documents one after the other. -/
def loadAll (s : Session) (ds : List Document) : Session := ds.foldl load s

/-- A sequence of documents is loaded like one document with all their declarations. -/
theorem loadAll_eq (ds : List Document) (s : Session) : s.loadAll ds = s.load (Document.join ds) := by
  induction ds generalizing s with
  | nil => rfl
  | cons d ds ih => rw [loadAll, List.foldl_cons, ← loadAll, ih, load_load, Document.join_cons]

/-! ### Sessions that come about -/

/-- The sessions that come about: a session starts on a host, documents are loaded, and meanwhile
    commands and events change the world, which is all they change. -/
inductive Arises : Session → Prop
  | start (host : Host) (limits : Limits) (moment : Moment) (seed : Nat) :
      Arises (.start host limits moment seed)
  | meanwhile {s : Session} (w : World) : Arises s → Arises { s with world := w }
  | load {s : Session} (d : Document) : Arises s → Arises (s.load d)

variable {s : Session}

theorem Arises.invoke {name : String} {sender : Option String} {outcome : Outcome} {s' : Session}
    (h : s.Arises) (hs : s.invoke name sender = some (outcome, s')) : s'.Arises := by
  obtain ⟨⟨o, w⟩, -, heq⟩ := Option.map_eq_some_iff.1 hs
  cases heq
  exact h.meanwhile w

/-- Each handler of a session is found under its own name. -/
theorem Arises.filed (h : s.Arises) : s.registry.Filed := by
  induction h with
  | start host limits moment seed =>
    intro name h hget
    cases hget
  | meanwhile w _ ih => exact ih
  | load d _ ih => exact ih.registerAll d.handlers

/-- What a session is after documents were loaded into it: the last declaration of a name counts, a
    name that none declares keeps what it had, and the registry lists its handlers by their names. -/
structure HasLoaded (s : Session) (ds : List Document) (s' : Session) : Prop where
  store : ∀ name, s'.store.get? name =
    (((ds.flatMap (·.vars)).filter (·.name == name)).getLast?.map (·.value)).or (s.store.get? name)
  registry : ∀ name, s'.registry.get? name =
    ((ds.flatMap (·.handlers)).filter (·.name == name)).getLast?.or (s.registry.get? name)
  filed : s'.registry.Filed
  increasing : s'.registry.names.Pairwise (· < ·)
  names : ∀ name, name ∈ s'.registry.names ↔
    name ∈ (ds.flatMap (·.handlers)).map (·.name) ++ s.registry.names
  size : s'.registry.size =
    ((ds.flatMap (·.handlers)).map (·.name) ++ s.registry.names).dedup.length
  version : s'.version = (ds.filterMap (·.version)).getLast?.or s.version

theorem Arises.hasLoaded (h : s.Arises) (ds : List Document) : s.HasLoaded ds (s.loadAll ds) := by
  rw [loadAll_eq]
  exact {
    store := get?_store_load s (Document.join ds)
    registry := Registry.get?_registerAll s.registry (Document.join ds).handlers
    filed := (h.load (Document.join ds)).filed
    increasing := Table.names_increasing _
    names := fun _ => Registry.mem_names_registerAll
    size := Table.size_eq_length_dedup fun _ => Registry.mem_names_registerAll
    version := by rw [load_eq]; rfl }

/-! ### Sources -/

/-- Loads a source into the session at hand, step by step. A fault leaves the session as far as the
    steps before it have brought it. -/
def loading (source : String) : ExceptT Source.Error (StateM Session) Document := do
  let d ← liftExcept (Document.parse source)
  modify (·.load d)
  return d

/-- Step by step, a source is loaded into the same session as at once, and a fault comes before any
    change. -/
theorem run_loading (source : String) (s : Session) : (loading source).run s =
    match s.loadSource source with
    | .ok (d, s') => (.ok d, s')
    | .error e => (.error e, s) := by
  rw [loadSource, loading]
  cases Document.parse source with
  | ok d => rfl
  | error e => rfl

end Session

/-- In a session that comes about, loading documents makes the last declaration of each name count,
    loading one again changes nothing, and a source that cannot be read leaves no trace. -/
theorem last_declaration_wins (s : Session) (h : s.Arises) (ds : List Document) :
    s.HasLoaded ds (s.loadAll ds) ∧
      (∀ d, ((s.loadAll ds).load d).load d = (s.loadAll ds).load d) ∧
      ∀ source e, s.loadSource source = .error e → (Session.loading source).run s = (.error e, s) := by
  refine ⟨h.hasLoaded ds, Session.load_load_self _, ?_⟩
  intro source e he
  rw [Session.run_loading, he]

/-- A document with a variable and a handler that sets another one. -/
def Document.first : Document where
  vars := [⟨"n", .int 1⟩]
  handlers := [⟨"Go", [{ tag := "SetVar"
                         attributes := Table.ofList [("var", "m"), ("value", "kept")] }]⟩]
  version := some "1"

/-- Documents that declare names again, among themselves and over the first one. -/
def Document.others : List Document :=
  [{ vars := [⟨"n", .int 2⟩, ⟨"b", .bool true⟩, ⟨"n", .int 3⟩]
     handlers := [⟨"Stop", [{ tag := "Log" }]⟩, ⟨"Go", []⟩]
     version := some "2" },
   { vars := [⟨"b", .bool false⟩], handlers := [⟨"Stop", []⟩] }]

/-- The handler of the first document is invoked before the others are loaded; its variable stays. -/
theorem last_declaration_wins_redeclared : ∃ s s' : Session, s.Arises ∧ s' = s.loadAll Document.others ∧
    s.HasLoaded Document.others s' ∧ (s'.load .first).load .first = s'.load .first ∧
    s'.store.snapshot = [("b", .bool false), ("m", .str "kept"), ("n", .int 3)] ∧
    s'.registry.names = ["Go", "Stop"] ∧ s'.version = some "2" ∧
    ∃ e, s.loadSource "<a" = .error e ∧ (Session.loading "<a").run s = (.error e, s) := by
  obtain ⟨s, hs, hvars, hnames, hversion, e, he⟩ : ∃ s,
      ((Session.start {} {} ⟨0, 0⟩ 0).load .first).invoke "Go" none = some (.completed, s) ∧
      (s.loadAll Document.others).store.snapshot =
        [("b", .bool false), ("m", .str "kept"), ("n", .int 3)] ∧
      (s.loadAll Document.others).registry.names = ["Go", "Stop"] ∧
      (s.loadAll Document.others).version = some "2" ∧ ∃ e, s.loadSource "<a" = .error e :=
    ⟨_, rfl, rfl, rfl, rfl, _, rfl⟩
  have harises : s.Arises := ((Session.Arises.start {} {} ⟨0, 0⟩ 0).load .first).invoke hs
  obtain ⟨hloaded, hagain, hsource⟩ := last_declaration_wins s harises Document.others
  exact ⟨s, _, harises, rfl, hloaded, hagain .first, hvars, hnames, hversion, e, he,
    hsource "<a" e he⟩

end HandlerScript
