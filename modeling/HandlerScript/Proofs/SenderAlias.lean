import HandlerScript.Proofs.Effect.Reading
import HandlerScript.Proofs.Node.Lookup
import HandlerScript.Proofs.Retention
import HandlerScript.Proofs.Run.Under
import HandlerScript.Proofs.Template
import HandlerScript.Proofs.Text.Trim

/-! The sender reaches every command unchanged.

    Where a command names a widget by the alias of the sender, the name of the sender can be written
    instead, at any place of a tree: the two trees do the same when they are run for that sender. For
    this the sender has to be handed down unchanged through branches, loops, guarded blocks and calls,
    also after events of other senders have been handled in between. All that the name needs is to mean
    itself: it is trimmed, has no opening brace and is not the alias. The host has to know the widget,
    and goes on knowing it, since widgets are never lost. -/

namespace HandlerScript

/-! ### Trees that name the sender -/

/-- The attributes by which commands name widgets. -/
def widgetAttributes : List String := ["target", "from", "to"]

/-- The commands that take the widgets they act upon from those attributes. -/
def Command.namesWidgets : Command → Bool
  | .set | .get | .show | .hide | .enable | .disable | .copyProperty => true
  | _ => false

/-- A text that stands for the sender. -/
def IsAlias (text : String) : Prop := Text.sameLetters (Text.trim text) Host.senderAlias = true

/-- A name that means itself where a widget is named. -/
structure MeansItself (name : String) : Prop where
  trimmed : Text.trim name = name
  plain : '{' ∉ name.toList
  notAlias : Text.sameLetters name Host.senderAlias = false

/-- The second entry is the first, or names the widget in place of the alias of the sender. -/
inductive EntryNames (widget : String) : String × String → String × String → Prop
  | same (e : String × String) : EntryNames widget e e
  | named {name value : String} (word : String) : word ∈ widgetAttributes →
      Text.sameLetters name word = true → IsAlias value →
      EntryNames widget (name, value) (name, widget)

/-- The second tree is the first with the widget named in place of the alias of the sender, in some
    attributes of commands that take their widgets from them. -/
inductive Node.NamesSender (widget : String) : Node → Node → Prop
  | node {n n' : Node} : n'.tag = n.tag → n'.attributes = n.attributes → n'.text = n.text →
      List.Forall₂ (NamesSender widget) n.children n'.children → NamesSender widget n n'
  | named {n n' : Node} : n'.tag = n.tag → (Command.ofTag n.tag).namesWidgets = true →
      List.Forall₂ (EntryNames widget) n.attributes.entries n'.attributes.entries →
      n'.text = n.text → List.Forall₂ (NamesSender widget) n.children n'.children →
      NamesSender widget n n'

/-! ### Attributes that name the sender -/

section Attributes

variable {widget : String} {es es' : List (String × String)} {n n' : Node}

theorem EntryNames.name_eq {e e' : String × String} (h : EntryNames widget e e') : e'.1 = e.1 := by
  cases h with
  | same e => rfl
  | named _ _ _ _ => rfl

/-- Whether an entry names the sender depends on the letters of its name only. -/
theorem EntryNames.respelled {e e' : String × String} (h : EntryNames widget e e') {name : String}
    (hname : Text.sameLetters e.1 name = true) : EntryNames widget (name, e.2) (name, e'.2) := by
  cases h with
  | same e => exact .same _
  | named a ha hletters halias =>
    refine .named a ha ?_ halias
    rw [Text.sameLetters, ← Text.sameLetters_iff.1 hname]
    exact hletters

theorem lookup_rel (name : String) (h : List.Forall₂ (EntryNames widget) es es') :
    Option.Rel (fun v v' => EntryNames widget (name, v) (name, v')) (es.lookup name)
      (es'.lookup name) := by
  induction h with
  | nil => exact .none
  | @cons e e' _ _ he _ ih =>
    rw [Table.lookup_cons_eq_ite, Table.lookup_cons_eq_ite, he.name_eq]
    split
    · rename_i heq
      have hletters : Text.sameLetters e.1 name = true := Text.sameLetters_iff.2 (by rw [heq])
      exact .some (he.respelled hletters)
    · exact ih

/-- What look-ups find in the two lists of entries corresponds. -/
theorem lookupIn_rel (name : String) (h : List.Forall₂ (EntryNames widget) es es') :
    Option.Rel (fun v v' => EntryNames widget (name, v) (name, v')) (lookupIn es name)
      (lookupIn es' name) := by
  have hexact := lookup_rel name h
  have hfind : Option.Rel (fun e e' => EntryNames widget (name, e.2) (name, e'.2))
      (es.find? fun e => Text.sameLetters e.1 name)
      (es'.find? fun e => Text.sameLetters e.1 name) :=
    find?_rel h (fun e e' he => by rw [he.name_eq]) fun e e' he hname => he.respelled hname
  unfold lookupIn
  generalize es.lookup name = o at hexact
  generalize es'.lookup name = o' at hexact
  cases hexact with
  | some hv => exact .some hv
  | none =>
    generalize (es.find? fun e => Text.sameLetters e.1 name) = o at hfind
    generalize (es'.find? fun e => Text.sameLetters e.1 name) = o' at hfind
    cases hfind with
    | none => exact .none
    | some he => exact .some he

/-- Attributes by which no widget is named are the same. -/
theorem attr?_of_other (h : List.Forall₂ (EntryNames widget) n.attributes.entries
      n'.attributes.entries) {name : String}
    (hname : ∀ a ∈ widgetAttributes, Text.sameLetters name a = false) :
    n'.attr? name = n.attr? name := by
  have hrel := lookupIn_rel name h
  rw [Node.attr?_eq_lookupIn, Node.attr?_eq_lookupIn]
  generalize lookupIn n.attributes.entries name = o at hrel
  generalize lookupIn n'.attributes.entries name = o' at hrel
  cases hrel with
  | none => rfl
  | some hv =>
    cases hv with
    | same _ => rfl
    | named a ha hletters _ =>
      rw [hname a ha] at hletters
      cases hletters

end Attributes

/-! ### Widgets that texts name -/

section Widgets

variable {widget : String} {s : Scope} {n n' : Node}

/-- The alias has no brace in it, so it stays as it is in every scope. -/
theorem resolve_alias (s : Scope) {text : String} (h : IsAlias text) : s.resolve text = text := by
  refine s.resolve_plain fun hbrace => ?_
  have htrim : '{' ∈ (Text.trim text).toList := by
    rw [Text.trim, String.toList_ofList]
    exact Text.mem_trimmed hbrace (by decide)
  have hletters : (Text.trim text).toList.map Char.toLower =
      Host.senderAlias.toList.map Char.toLower :=
    String.ofList_injective (Text.sameLetters_iff.1 h)
  have hlower : '{' ∈ (Text.trim text).toList.map Char.toLower :=
    List.mem_map.2 ⟨_, htrim, by decide⟩
  rw [hletters] at hlower
  exact absurd hlower (by decide)

variable (hname : MeansItself widget) (hsender : s.sender = some widget)
  (hknown : s.host.knows widget = true)

include hname hsender hknown

/-- The alias and the name of the sender are the same widget. -/
theorem onWidget_alias {text : String} (h : IsAlias text) :
    Effect.onWidget s widget = Effect.onWidget s text := by
  have hletters : Text.sameLetters (Text.trim text) Host.senderAlias = true := h
  have halias : s.widget? text = some widget := by
    rw [Scope.widget?, Host.find?, hletters, hsender]
    rfl
  have hitself : s.widget? widget = some widget := by
    rw [Scope.widget?, Host.find?, hname.trimmed, hname.notAlias, hknown]
    rfl
  funext e
  rw [Effect.onWidget, Effect.onWidget, halias, hitself]

/-- Corresponding attributes name the same widgets. -/
theorem attr?_onWidget (h : List.Forall₂ (EntryNames widget) n.attributes.entries
      n'.attributes.entries) (name : String) :
    Option.Rel (fun t t' => Effect.onWidget s t' = Effect.onWidget s t) (s.attr? n name)
      (s.attr? n' name) := by
  have hrel := lookupIn_rel name h
  rw [Scope.attr?, Scope.attr?, Node.attr?_eq_lookupIn, Node.attr?_eq_lookupIn]
  generalize lookupIn n.attributes.entries name = o at hrel
  generalize lookupIn n'.attributes.entries name = o' at hrel
  cases hrel with
  | none => exact .none
  | some hv =>
    cases hv with
    | same _ => exact .some rfl
    | named _ _ _ halias =>
      refine .some ?_
      rw [resolve_alias s halias, s.resolve_plain hname.plain]
      exact onWidget_alias hname hsender hknown halias

theorem attr?_writeProperty (h : List.Forall₂ (EntryNames widget) n.attributes.entries
      n'.attributes.entries) (name : String) :
    Option.Rel (fun t t' => Effect.writeProperty s t' = Effect.writeProperty s t) (s.attr? n name)
      (s.attr? n' name) := by
  have hrel := attr?_onWidget hname hsender hknown h name
  generalize s.attr? n name = o at hrel
  generalize s.attr? n' name = o' at hrel
  cases hrel with
  | none => exact .none
  | some ht =>
    refine .some ?_
    funext property value
    rw [Effect.writeProperty, Effect.writeProperty, ht]

end Widgets

/-! ### Commands that name the sender -/

section Commands

variable {widget : String} {s : Scope} {n n' : Node} (hname : MeansItself widget)
  (hsender : s.sender = some widget) (hknown : s.host.knows widget = true)
  (h : List.Forall₂ (EntryNames widget) n.attributes.entries n'.attributes.entries)

include h

theorem scopeAttr?_of_other {name : String}
    (hname : ∀ a ∈ widgetAttributes, Text.sameLetters name a = false) :
    s.attr? n' name = s.attr? n name := by
  rw [Scope.attr?, Scope.attr?, attr?_of_other h hname]

theorem propertyName_of_other {name : String}
    (hname : ∀ a ∈ widgetAttributes, Text.sameLetters name a = false) :
    Effect.propertyName s n' name = Effect.propertyName s n name := by
  rw [Effect.propertyName, Effect.propertyName, scopeAttr?_of_other h hname]

theorem target?_of_names : s.target? n' = s.target? n := by
  have hvar : n'.attr? "var" = n.attr? "var" := attr?_of_other h (by decide)
  have hvarName : n'.attr? "name" = n.attr? "name" := attr?_of_other h (by decide)
  simp only [Scope.target?, Scope.attrOf?, Node.attrOf?, List.findSome?, hvar, hvarName]

include hname hsender hknown

theorem set_names : Effect.set s n' = Effect.set s n := by
  have hrel := attr?_writeProperty hname hsender hknown h "target"
  have hvalue : s.attr? n' "value" = s.attr? n "value" := scopeAttr?_of_other h (by decide)
  have htype : s.attr? n' "type" = s.attr? n "type" := scopeAttr?_of_other h (by decide)
  have hproperty : Effect.propertyName s n' "property" = Effect.propertyName s n "property" :=
    propertyName_of_other h (by decide)
  unfold Effect.set
  rw [Scope.attrText, Scope.attrText, hvalue, htype, hproperty, target?_of_names h]
  generalize s.attr? n "target" = o at hrel
  generalize s.attr? n' "target" = o' at hrel
  cases hrel with
  | none => rfl
  | some ht => exact congrFun (congrFun ht _) _

theorem get_names : Effect.get s n' = Effect.get s n := by
  have hrel := attr?_onWidget hname hsender hknown h "target"
  have hproperty : Effect.propertyName s n' "property" = Effect.propertyName s n "property" :=
    propertyName_of_other h (by decide)
  unfold Effect.get
  rw [hproperty, target?_of_names h]
  generalize s.attr? n "target" = o at hrel
  generalize s.attr? n' "target" = o' at hrel
  cases hrel with
  | none => rfl
  | some ht =>
    cases s.target? n with
    | none => rfl
    | some name => simp only [ht]

theorem flag_names (property : String) (on : Bool) :
    Effect.flag property on s n' = Effect.flag property on s n := by
  have hrel := attr?_writeProperty hname hsender hknown h "target"
  unfold Effect.flag
  generalize s.attr? n "target" = o at hrel
  generalize s.attr? n' "target" = o' at hrel
  cases hrel with
  | none => rfl
  | some ht => exact congrFun (congrFun ht _) _

theorem copyProperty_names : Effect.copyProperty s n' = Effect.copyProperty s n := by
  have hfrom := attr?_onWidget hname hsender hknown h "from"
  have hto := attr?_writeProperty hname hsender hknown h "to"
  have hread : Effect.propertyName s n' "fromProperty" = Effect.propertyName s n "fromProperty" :=
    propertyName_of_other h (by decide)
  have hwritten : s.attr? n' "toProperty" = s.attr? n "toProperty" :=
    scopeAttr?_of_other h (by decide)
  unfold Effect.copyProperty
  rw [hread, hwritten]
  generalize s.attr? n "from" = source at hfrom
  generalize s.attr? n' "from" = source' at hfrom
  generalize s.attr? n "to" = target at hto
  generalize s.attr? n' "to" = target' at hto
  cases hfrom with
  | none => rfl
  | some hsource =>
    cases hto with
    | none => rfl
    | some htarget => simp only [hsource, htarget]

/-- A command that takes its widgets from the attributes has the same effect in both trees. -/
theorem effect_names {c : Command} (hc : c.namesWidgets = true) (moment : Moment) :
    c.effect moment s n' = c.effect moment s n := by
  cases c with
  | set => exact set_names hname hsender hknown h
  | get => exact get_names hname hsender hknown h
  | «show» | hide | enable | disable => exact flag_names hname hsender hknown h _ _
  | copyProperty => exact copyProperty_names hname hsender hknown h
  | _ => cases hc

end Commands

/-! ### Runs for the sender -/

/-- A widget that the host has is not lost. -/
theorem Host.Keeps.knows {h h' : Host} (hkeeps : h.Keeps h') {widget : String}
    (hknown : h.knows widget = true) : h'.knows widget = true := by
  rw [Host.knows, Bool.or_eq_true] at hknown ⊢
  rw [hkeeps.make.permissive]
  exact hknown.imp id (hkeeps.widgets widget)

theorem knows_invariant (widget : String) : Invariant fun w => w.host.knows widget = true :=
  .of_perform (fun hw hp => (perform_keeps_host hp).knows hw)
    (fun {w} hw => (Host.Keeps.pump w.host).knows hw) fun _ hw => hw

/-- The parts that commands look for have no command of their own. -/
theorem Node.namesWidgets_part : ∀ tag ∈ partTags, (Command.ofTag tag).namesWidgets = false := by
  decide

theorem Node.keepsParts_namesSender (widget : String) : KeepsParts (NamesSender widget) where
  hasTag {c c'} h tag _ := by
    cases h with
    | node htag _ _ _ => exact hasTag_congr htag tag
    | named htag _ _ _ _ => exact hasTag_congr htag tag
  paired {c c'} h tag htag hpart := by
    cases h with
    | node _ hattr _ hchildren => exact ⟨attr?_congr hattr, hchildren⟩
    | named _ hcommand _ _ _ =>
      have hnone : (Command.ofTag c.tag).namesWidgets = false := by
        rw [Command.ofTag, Text.sameLetters_iff.1 hpart]
        exact namesWidgets_part tag htag
      rw [hnone] at hcommand
      cases hcommand

theorem Command.leaf_of_namesWidgets {c : Command} (h : c.namesWidgets = true) :
    c.isControlFlow = false ∧ c ≠ .delay := by
  cases c with
  | set | get | «show» | hide | enable | disable | copyProperty => decide
  | _ => cases h

/-- Trees that name the sender agree at every depth, in a world whose host knows the sender. -/
theorem execute_agree_namesSender (p : Program) {widget : String} (hname : MeansItself widget) :
    ∀ (depth : Nat) {n n' : Node}, n.NamesSender widget n' → ∀ w w',
      Under (fun w => w.host.knows widget = true) Eq w w' →
      (execute p depth (some widget) n w).Agree (Under (fun w => w.host.knows widget = true) Eq) False
        (execute p depth (some widget) n' w')
  | 0, _, _, _, _, _, _ => .tooDeep
  | depth + 1, n, n', h, w, w', hw => by
    have hknown := knows_invariant widget
    -- A node with the same attributes steps like any other; one that names the sender is a command
    -- without parts, so its effect is all of its step.
    cases h with
    | node htag hattr htext hchildren =>
      have hpaired : n.Paired (Node.NamesSender widget) n' := ⟨Node.attr?_congr hattr, hchildren⟩
      have hreads : n.ReadsAs n' := .of_eq hattr htext
      refine step_agree (mirrors_eq.under hknown) (Node.keepsParts_namesSender widget) rfl hpaired
        (by rw [htag]) ?_ (fun c c' hc => execute_agree_namesSender p hname depth hc)
        (handlersAgree_under hknown p depth) hw
      obtain ⟨rfl, hw⟩ := hw
      rw [Effect.effect_readsAs hreads (.refl _) _ fun _ => htag]
      exact perform_agree_under hknown (.refl _ _) hw
    | named htag hcommand hentries _ _ =>
      obtain ⟨rfl, hw⟩ := hw
      obtain ⟨hflow, hdelay⟩ := Command.leaf_of_namesWidgets hcommand
      have heffect := effect_names hname (s := w.scope (some widget)) rfl hw hentries hcommand
        (p.start.later w.elapsed)
      have hn : execute p (depth + 1) (some widget) n w = _ := step_leaf hflow hdelay
      have hn' : execute p (depth + 1) (some widget) n' w = _ :=
        step_leaf (htag ▸ hflow) (htag ▸ hdelay)
      rw [hn, hn', htag, heffect]
      exact perform_agree_under hknown (.refl _ _) hw

/-- Naming the sender in place of its alias changes nothing in a run for that sender: at every depth
    the two trees end alike, with the same result and in the same world, or both do not end. -/
theorem execute_namesSender (p : Program) (widget : String) (hname : MeansItself widget) (n n' : Node)
    (h : n.NamesSender widget n') (w : World) (hknown : w.host.knows widget = true) (depth : Nat) :
    execute p depth (some widget) n' w = execute p depth (some widget) n w := by
  have hagree := execute_agree_namesSender p hname depth h w w ⟨rfl, hknown⟩
  exact (hagree.mono fun _ _ hw => hw.1).eq

/-- A program with one handler, which shows the widget that it is invoked for. -/
def Program.showing : Program :=
  { registry := Registry.register {}
      ⟨"Show", [{ tag := "Show", attributes := Table.ofList [("target", "$sender")] }]⟩ }

/-- A world with a button, and an event of another widget that waits to be handled. -/
def World.pressed : World :=
  { host := { widgets := Table.ofList [("button", ∅)], pending := [⟨"Show", some "panel"⟩] } }

/-- Waits, calls a handler, and then writes a property of a widget in a guarded block. -/
def Node.marking (target : String) : Node :=
  { tag := "TryCatch"
    children := [{ tag := "Delay" },
      { tag := "Call", attributes := Table.ofList [("handler", "Show")] },
      { tag := "SET", attributes := Table.ofList [("Target", target), ("value", "on")] }] }

theorem Node.marking_namesSender :
    (Node.marking " $Sender").NamesSender "button" (.marking "button") := by
  have hdelay : Node.NamesSender "button" { tag := "Delay" } { tag := "Delay" } :=
    .node rfl rfl rfl .nil
  have hcall : Node.NamesSender "button"
      { tag := "Call", attributes := Table.ofList [("handler", "Show")] }
      { tag := "Call", attributes := Table.ofList [("handler", "Show")] } := .node rfl rfl rfl .nil
  have hentry : EntryNames "button" ("Target", " $Sender") ("Target", "button") :=
    .named "target" (by decide) (by decide +kernel) (by unfold IsAlias; decide +kernel)
  have hset : Node.NamesSender "button"
      { tag := "SET", attributes := Table.ofList [("Target", " $Sender"), ("value", "on")] }
      { tag := "SET", attributes := Table.ofList [("Target", "button"), ("value", "on")] } :=
    .named rfl (by decide +kernel) (.cons hentry (.cons (.same _) .nil)) rfl .nil
  exact .node rfl rfl rfl (.cons hdelay (.cons hcall (.cons hset .nil)))

theorem meansItself_button : MeansItself "button" :=
  ⟨by decide +kernel, by decide +kernel, by decide +kernel⟩

/-- The event is handled for its own sender, the called handler and the command behind it for the
    button, whether it is named or not. -/
theorem execute_namesSender_marking :
    MeansItself "button" ∧ (Node.marking " $Sender").NamesSender "button" (.marking "button") ∧
    (∃ w', execute .showing 3 (some "button") (.marking " $Sender") .pressed = .done w' ∧
      w'.host.property? "panel" "Visible" = some (.scalar (.bool true)) ∧
      w'.host.property? "button" "Visible" = some (.scalar (.bool true)) ∧
      w'.host.property? "button" "Text" = some (.scalar (.str "on"))) ∧
    ∀ depth, execute .showing depth (some "button") (.marking "button") .pressed =
      execute .showing depth (some "button") (.marking " $Sender") .pressed :=
  ⟨meansItself_button, Node.marking_namesSender, ⟨_, rfl, rfl, rfl, rfl⟩,
    execute_namesSender .showing "button" meansItself_button (.marking " $Sender") (.marking "button")
      Node.marking_namesSender .pressed rfl⟩

end HandlerScript
