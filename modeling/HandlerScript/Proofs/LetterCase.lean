import HandlerScript.Proofs.Effect.Reading
import HandlerScript.Proofs.Node.Lookup
import HandlerScript.Proofs.Run.Host
import HandlerScript.Proofs.Run.Under

/-! The case of letters in tags and attribute names means nothing.

    Two programs that are spelled alike up to the case of their tags and attribute names run alike. A
    tag names a command, or a part that a command looks for, in any case, and so does an attribute name
    as long as no other attribute of the node has its letters. The one place where the spelling of a
    tag shows is the log, when no command has that tag. So the worlds of two such runs are the same but
    for the case of letters in the log, and no command ever reads the log.

    A host that adds commands is left out: it knows them by exact spelling. -/

namespace HandlerScript

/-! ### Programs in another case -/

/-- The second table has the entries of the first with their names in another case. The names are
    distinct ignoring it. -/
structure Table.Recased (t t' : Table String) : Prop where
  distinct : Text.DistinctLetters t.names
  entries : (t.entries.map loweredEntry).Perm (t'.entries.map loweredEntry)

/-- The second tree is the first with tags and attribute names in another case. -/
inductive Node.Recased : Node → Node → Prop
  | node {n n' : Node} : Text.sameLetters n'.tag n.tag = true → n.attributes.Recased n'.attributes →
      n'.text = n.text → List.Forall₂ Recased n.children n'.children → Recased n n'

structure Handler.Recased (h h' : Handler) : Prop where
  name : h'.name = h.name
  body : List.Forall₂ Node.Recased h.body h'.body

/-- The same names are registered, for handlers that differ in the case of tags and attribute names
    at most. -/
def Registry.Recased (r r' : Registry) : Prop :=
  ∀ name, Option.Rel Handler.Recased (r.get? name) (r'.get? name)

section Nodes

variable {n n' : Node}

theorem Node.Recased.attr (h : n.Recased n') (name : String) : n'.attr? name = n.attr? name := by
  cases h with
  | node _ hattributes _ _ => exact lookupIn_congr hattributes.distinct hattributes.entries

theorem Node.Recased.lower_tag (h : n.Recased n') : Text.lower n'.tag = Text.lower n.tag := by
  cases h with
  | node htag _ _ _ => exact Text.sameLetters_iff.1 htag

theorem Node.Recased.readsAs (h : n.Recased n') : n.ReadsAs n' := by
  refine ⟨h.attr, ?_⟩
  cases h with
  | node _ _ htext _ => rw [Node.content?, Node.content?, htext]

theorem Node.Recased.paired (h : n.Recased n') : n.Paired Recased n' := by
  refine ⟨h.attr, ?_⟩
  cases h with
  | node _ _ _ hchildren => exact hchildren

theorem Node.Recased.command (h : n.Recased n') : Command.ofTag n'.tag = Command.ofTag n.tag := by
  rw [Command.ofTag, Command.ofTag, h.lower_tag]

theorem Node.keepsParts_recased : KeepsParts Recased where
  hasTag h tag _ := by rw [hasTag, hasTag, Text.sameLetters, Text.sameLetters, h.lower_tag]
  paired h _ _ _ := h.paired

end Nodes

/-! ### Worlds that differ in the log -/

/-- Two lines of a log of one level, with the same letters. -/
def SameLine (line line' : Level × String) : Prop :=
  line'.1 = line.1 ∧ Text.sameLetters line'.2 line.2 = true

/-- The second world is the first, but for the case of letters in its log. -/
inductive World.SameButCase : World → World → Prop
  | intro {w : World} {logs : Array (Level × String)} :
      List.Forall₂ SameLine w.host.logs.toList logs.toList →
      SameButCase w { w with host := { w.host with logs := logs } }

theorem sameLine_refl (line : Level × String) : SameLine line line :=
  ⟨rfl, Text.sameLetters_refl line.2⟩

namespace World.SameButCase

variable {w w' : World}

theorem refl (w : World) : w.SameButCase w :=
  .intro (List.forall₂_same.2 fun line _ => sameLine_refl line)

theorem log (h : w.SameButCase w') (level : Level) {message message' : String}
    (hsame : Text.sameLetters message' message = true) :
    (w.log level message).SameButCase (w'.log level message') := by
  cases h with
  | intro hlogs =>
    unfold World.log Host.log
    cases hreach : w.host.reach with
    | full =>
      refine .intro ?_
      rw [Array.toList_push, Array.toList_push]
      exact List.rel_append hlogs (.cons ⟨rfl, hsame⟩ .nil)
    | widgetsOnly refusal => exact .intro hlogs

/-- No command can tell the two worlds apart. -/
theorem readsAs (h : w.SameButCase w') (sender : Option String) :
    (w.scope sender).ReadsAs (w'.scope sender) := by
  cases h with
  | intro _ => exact ⟨rfl, rfl, rfl, rfl, rfl, rfl, rfl, rfl, rfl⟩

theorem pump (h : w.SameButCase w') : World.SameButCase { w with host := w.host.pump.2 }
    { w' with host := w'.host.pump.2 } := by
  cases h with
  | intro hlogs =>
    unfold Host.pump
    cases w.host.reach with
    | full => exact .intro hlogs
    | widgetsOnly refusal => exact .intro hlogs

/-- Doing the same to both worlds leaves them the same but for the case of letters in the log. -/
theorem perform_agree (h : w.SameButCase w') (e : Effect) :
    (w.perform e).Agree World.SameButCase False (w'.perform e) := by
  cases e with
  | log level message => exact .done (h.log level (Text.sameLetters_refl message))
  | raise f => exact .fault h
  | closeWindow name =>
    cases h with
    | intro hlogs => cases name <;> exact .done (.intro hlogs)
  | _ =>
    cases h with
    | intro hlogs => exact .done (.intro hlogs)

end World.SameButCase

theorem mirrors_sameButCase : Mirrors World.SameButCase where
  resolve h sender text := by rw [(h.readsAs sender).resolve]
  elapsed h := by
    cases h with
    | intro _ => rfl
  events h := by
    cases h with
    | intro _ => exact Host.pump_congr rfl rfl
  set name value h := by
    cases h with
    | intro hlogs => exact .intro hlogs
  log level message h := h.log level (Text.sameLetters_refl message)
  pump h := h.pump
  wait ms h := by
    cases h with
    | intro hlogs => exact .intro hlogs

/-! ### Runs -/

/-- A host that adds no commands keeps to that. -/
theorem noCommands_invariant : Invariant fun w => w.host.commands = [] :=
  .of_perform (fun hw hp => (perform_sameMake hp).commands.trans hw)
    (fun hw => (Host.SameMake.pump _).commands.trans hw) fun _ hw => hw

/-- Without commands that the host adds, a tag without a command is reported and skipped. -/
theorem Effect.pluginCommand_eq_warn {s : Scope} (h : s.host.commands = []) (n : Node) :
    pluginCommand s n = warn ("Unknown command `" ++ n.tag ++ "` skipped") := by
  have hadds : s.host.addsCommand n.tag = false := by
    unfold Host.addsCommand
    split <;> simp [h]
  rw [pluginCommand, hadds]
  rfl

section Runs

variable {n n' : Node} {w w' : World}

/-- The effects of one command on nodes in another case agree. -/
theorem effect_agree_recased (c : Command) (moment : Moment) (sender : Option String)
    (h : n.Recased n') (hw : w.SameButCase w') (hcommands : w.host.commands = []) :
    (w.perform (c.effect moment (w.scope sender) n)).Agree World.SameButCase False
      (w'.perform (c.effect moment (w'.scope sender) n')) := by
  by_cases hc : c = .unknown
  · -- the only effect that shows the spelling of a tag
    have hcommands' : w'.host.commands = [] := by
      cases hw with
      | intro _ => exact hcommands
    subst hc
    show (w.perform (Effect.pluginCommand _ n)).Agree _ _ (w'.perform (Effect.pluginCommand _ n'))
    rw [Effect.pluginCommand_eq_warn hcommands, Effect.pluginCommand_eq_warn hcommands']
    refine .done (hw.log .warn (Text.sameLetters_iff.2 ?_))
    rw [Text.lower_append, Text.lower_append, h.lower_tag, Text.lower_append, Text.lower_append]
  · rw [Effect.effect_readsAs h.readsAs (hw.readsAs sender) c fun hc' => absurd hc' hc]
    exact hw.perform_agree _

end Runs

/-- The worlds of two runs in different cases: the same but for letters in the log, on a host without
    commands of its own. -/
def CaseWorlds : World → World → Prop := Under (fun w => w.host.commands = []) World.SameButCase

theorem mirrors_caseWorlds : Mirrors CaseWorlds := mirrors_sameButCase.under noCommands_invariant

section Programs

variable {p p' : Program} (hlimits : p'.limits = p.limits) (hstart : p'.start = p.start)
  (hregistry : p.registry.Recased p'.registry)

include hregistry

/-- Handlers in another case agree if their commands do. -/
theorem handlersAgree_recased {run run' : Runner} (h : ∀ sender {n n'}, n.Recased n' → ∀ w w',
      CaseWorlds w w' → (run sender n w).Agree CaseWorlds False (run' sender n' w')) :
    HandlersAgree CaseWorlds False p.registry p'.registry run run' := by
  intro sender name
  have hname := hregistry name
  generalize p.registry.get? name = o at hname
  generalize p'.registry.get? name = o' at hname
  cases hname with
  | none => exact .none
  | some hhandler =>
    exact .some fun w w' hw => runAll_agree (fun c c' hc => h sender hc) hhandler.body hw

include hlimits hstart

/-- Trees in another case agree at every depth. -/
theorem execute_agree_recased : ∀ (depth : Nat) (sender : Option String) {n n' : Node},
    n.Recased n' → ∀ w w', CaseWorlds w w' →
      (execute p depth sender n w).Agree CaseWorlds False (execute p' depth sender n' w')
  | 0, _, _, _, _, _, _, _ => .tooDeep
  | depth + 1, sender, n, n', h, w, w', hw => by
    have ih := execute_agree_recased depth
    refine step_agree mirrors_caseWorlds Node.keepsParts_recased hlimits h.paired h.command ?_
      (fun c c' hc => ih sender hc) (handlersAgree_recased hregistry ih) hw
    rw [hstart, mirrors_caseWorlds.elapsed hw]
    exact perform_agree_under noCommands_invariant
      (effect_agree_recased _ _ sender h hw.1 hw.2) hw.2

end Programs

/-- Programs that differ in the case of tags and attribute names at most run alike on a host without
    commands of its own: at every depth they end alike, with the same fault or none, in worlds that
    are the same but for the case of letters in the log, or both do not end; and so do invocations of
    any handler. -/
theorem recased_programs_agree (p p' : Program) (hlimits : p'.limits = p.limits)
    (hstart : p'.start = p.start) (hregistry : p.registry.Recased p'.registry) (w : World)
    (hcommands : w.host.commands = []) (sender : Option String) (depth : Nat) :
    (∀ n n', n.Recased n' → (execute p depth sender n w).Agree World.SameButCase False
      (execute p' depth sender n' w)) ∧
    ∀ name, Option.Rel (fun x x' => x'.1 = x.1 ∧ x.2.SameButCase x'.2)
      (invoke p depth name sender w) (invoke p' depth name sender w) := by
  have hw : CaseWorlds w w := ⟨.refl w, hcommands⟩
  have hexecute := execute_agree_recased hlimits hstart hregistry depth
  refine ⟨fun n n' h => ?_, fun name => ?_⟩
  · exact (hexecute sender h w w hw).mono fun _ _ hw' => hw'.1
  · have hinvoke : Option.Rel _ (invoke p depth name sender w) (invoke p' depth name sender w) :=
      invokeWith_rel mirrors_caseWorlds (handlersAgree_recased hregistry hexecute) name sender hw
    generalize invoke p depth name sender w = o at hinvoke
    generalize invoke p' depth name sender w = o' at hinvoke
    cases hinvoke with
    | none => exact .none
    | some h => exact .some ⟨h.1, h.2.1⟩

/-- A branch with a command that nobody knows and one that clears a variable, with the tags and
    attribute names in a given spelling. -/
def Node.spelled (spell : String → String) : Node :=
  { tag := spell "If"
    attributes := Table.ofList [(spell "condition", "1")]
    children := [{ tag := spell "Then", children := [{ tag := spell "Beep" },
      { tag := spell "Clear", attributes := Table.ofList [(spell "Var", "x")] }] }] }

/-- A program whose one handler is that branch. -/
def Program.spelled (spell : String → String) : Program :=
  { registry := Registry.register {} ⟨"Go", [.spelled spell]⟩ }

theorem Node.spelled_recased : (Node.spelled id).Recased (.spelled Text.lower) := by
  have hbeep : Node.Recased { tag := "Beep" } { tag := "beep" } :=
    .node (by decide +kernel) ⟨by decide +kernel, .refl _⟩ rfl .nil
  have hclear : Node.Recased { tag := "Clear", attributes := Table.ofList [("Var", "x")] }
      { tag := "clear", attributes := Table.ofList [("var", "x")] } :=
    .node (by decide +kernel) ⟨by decide +kernel, by decide +kernel⟩ rfl .nil
  exact .node (by decide +kernel) ⟨by decide +kernel, by decide +kernel⟩ rfl
    (.cons (.node (by decide +kernel) ⟨by decide +kernel, by decide +kernel⟩ rfl
      (.cons hbeep (.cons hclear .nil))) .nil)

theorem Program.spelled_recased :
    (Program.spelled id).registry.Recased (Program.spelled Text.lower).registry := by
  intro name
  have hget : ∀ spell, (Program.spelled spell).registry.get? name =
      if name = "Go" then some ⟨"Go", [.spelled spell]⟩ else none :=
    fun spell => Table.get?_insert ∅ "Go" _ name
  rw [hget, hget]
  split
  · exact .some ⟨rfl, .cons Node.spelled_recased .nil⟩
  · exact .none

/-- The branch in two spellings: both run their second command, and report the first by its tag. -/
theorem recased_programs_agree_spelled :
    (Node.spelled id).Recased (.spelled Text.lower) ∧
    (∃ w', execute (.spelled id) 3 none (.spelled id) {} = .done w' ∧
      w'.store.get? "x" = some (.str "") ∧
      w'.host.logs = #[(.warn, "Unknown command `Beep` skipped")]) ∧
    (execute (.spelled id) 3 none (.spelled id) {}).Agree World.SameButCase False
      (execute (.spelled Text.lower) 3 none (.spelled Text.lower) {}) ∧
    Option.Rel (fun x x' => x'.1 = x.1 ∧ x.2.SameButCase x'.2)
      (invoke (.spelled id) 3 "Go" none {}) (invoke (.spelled Text.lower) 3 "Go" none {}) := by
  obtain ⟨hexecute, hinvoke⟩ := recased_programs_agree (.spelled id) (.spelled Text.lower) rfl rfl
    Program.spelled_recased {} rfl none 3
  exact ⟨Node.spelled_recased, ⟨_, rfl, rfl, rfl⟩, hexecute _ _ Node.spelled_recased, hinvoke "Go"⟩

end HandlerScript
