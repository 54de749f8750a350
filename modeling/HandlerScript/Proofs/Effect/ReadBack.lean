import HandlerScript.Proofs.Run.Leaf
import HandlerScript.Proofs.SenderAlias

/-! Reading a property back.

    A `Set` writes a property of a widget and a `Get` reads one. Both find the widget alike, and the
    write does not change which widget a text names. The property is another matter: what is written
    goes under the name without the blanks around it, what is read is looked for under the name as it
    stands. So a `Get` finds what a `Set` with the same texts has written if there are no blanks around
    the property; else it finds what was there under the name as it stands, if anything. -/

namespace HandlerScript

/-- A `Set` of a widget property, by the texts that it is written with. -/
structure Node.SetsProperty (n : Node) (target : String) (property : Option String)
    (value : String) : Prop where
  tag : n.hasTag "Set" = true
  target : n.attr? "target" = some target
  property : n.attr? "property" = property
  value : n.attr? "value" = some value

/-- A `Get` of a widget property, by the texts that it is written with. -/
structure Node.GetsProperty (n : Node) (target : String) (property : Option String)
    (var : String) : Prop where
  tag : n.hasTag "Get" = true
  target : n.attr? "target" = some target
  property : n.attr? "property" = property
  var : n.attrOf? ["var", "name"] = some var

/-- A text that names a widget goes on to name it while the host keeps what it has. -/
theorem Host.Keeps.find? {h h' : Host} (hkeeps : h.Keeps h') {sender : Option String}
    {text widget : String} (hfind : h.find? sender text = some widget) :
    h'.find? sender text = some widget := by
  unfold Host.find? at hfind ⊢
  dsimp only at hfind ⊢
  split at hfind
  · rename_i halias
    rw [if_pos halias, hfind]
  · rename_i halias
    rw [if_neg halias]
    split at hfind
    · rename_i hknown
      rw [if_pos (hkeeps.knows hknown), hfind]
    · cases hfind

/-- What is found under a name as it stands after a property was written under the trimmed name. -/
theorem Host.property?_setProperty_trim (h : Host) (widget read : String) (value : PropertyValue) :
    (h.setProperty widget (Text.trim read) value).property? widget read =
      if Text.trim read = read then some value else h.property? widget read := by
  rw [property?_setProperty]
  by_cases htidy : Text.trim read = read
  · rw [if_pos htidy, if_pos ⟨rfl, htidy.symm⟩]
  · rw [if_neg htidy, if_neg fun heq => htidy heq.2.symm]

/-! ### What the two commands do -/

section Commands

variable {p : Program} {sender : Option String} {w : World} {n : Node}
  {target value var name widget : String} {property : Option String}

theorem propertyName_plain (s : Scope) (hproperty : n.attr? "property" = property)
    (hplain : ∀ text ∈ property, '\x7b' ∉ text.toList) :
    Effect.propertyName s n "property" = property.getD Effect.usualProperty := by
  rw [Effect.propertyName, s.attr?_plain hproperty hplain]

/-- A `Set` writes the value under the trimmed name of the property. -/
theorem execute_setsProperty (h : n.SetsProperty target property value)
    (htarget : '\x7b' ∉ target.toList) (hproperty : ∀ text ∈ property, '\x7b' ∉ text.toList)
    (hvalue : '\x7b' ∉ value.toList) (hwidget : (w.scope sender).widget? target = some widget)
    (hallowed : w.host.refusal? .setProperty "" = none) (depth : Nat) :
    execute p (depth + 1) sender n w = .done { w with
      host := w.host.setProperty widget (Text.trim (property.getD Effect.usualProperty))
        (.scalar (.str value)) } := by
  have htarget' : (w.scope sender).attr? n "target" = some target :=
    Scope.attr?_plain _ h.target (by simpa using htarget)
  have hvalue' : (w.scope sender).attr? n "value" = some value :=
    Scope.attr?_plain _ h.value (by simpa using hvalue)
  have hallowed' : (w.scope sender).host.refusal? .setProperty "" = none := hallowed
  have heffect : Effect.set (w.scope sender) n = .setProperty widget
      (Text.trim (property.getD Effect.usualProperty)) (.scalar (.str value)) := by
    simp only [Effect.set, htarget', Scope.attrText, hvalue', Option.getD_some,
      propertyName_plain _ h.property hproperty, Effect.writeProperty, Effect.onWidget, hwidget,
      Effect.unlessRefused, hallowed']
  rw [execute_tagged h.tag rfl Command.noConfusion]
  exact congrArg w.perform heffect

/-- A `Get` puts what it finds under the name of the property as it stands into the variable. -/
theorem execute_getsProperty (h : n.GetsProperty target property var)
    (htarget : '\x7b' ∉ target.toList) (hproperty : ∀ text ∈ property, '\x7b' ∉ text.toList)
    (hvar : '\x7b' ∉ var.toList) (hname : Text.nonBlank? var = some name)
    (hwidget : (w.scope sender).widget? target = some widget) (depth : Nat) :
    ∃ w', execute p (depth + 1) sender n w = .done w' ∧ w'.host = w.host ∧
      w'.store.get? name =
        ((w.host.property? widget (property.getD Effect.usualProperty)).map
          PropertyValue.toScalar).or (w.store.get? name) := by
  have htarget' : (w.scope sender).attr? n "target" = some target :=
    Scope.attr?_plain _ h.target (by simpa using htarget)
  have hvar' : (w.scope sender).target? n = some name := Scope.target?_plain _ h.var hvar hname
  have hname' : Effect.propertyName (w.scope sender) n "property" =
      property.getD Effect.usualProperty := propertyName_plain _ h.property hproperty
  rw [execute_tagged h.tag rfl Command.noConfusion]
  change ∃ w', w.perform (Effect.get (w.scope sender) n) = .done w' ∧ _
  have hhost : (w.scope sender).host = w.host := rfl
  simp only [Effect.get, htarget', hvar', Effect.onWidget, hwidget, hname', hhost]
  cases w.host.property? widget (property.getD Effect.usualProperty) with
  | none => exact ⟨w, rfl, rfl, rfl⟩
  | some found =>
    refine ⟨w.set name found.toScalar, rfl, rfl, ?_⟩
    exact (Table.get?_insert _ _ _ name).trans (if_pos rfl)

end Commands

/-! ### Both in a row -/

/-- A `Set` of a property and a `Get` with the same texts succeed one after the other, and the value
    is then under the trimmed name of the property. The variable holds it too if the name of the
    property has no blanks around it; else the variable holds what was there under the name as it
    stands before, if anything. -/
theorem get_reads_what_set_wrote (p : Program) (depth : Nat) (sender : Option String) (w : World)
    {setting getting : Node} {target value var name widget : String} {property : Option String}
    (hset : setting.SetsProperty target property value)
    (hget : getting.GetsProperty target property var)
    (hplain : ∀ text ∈ [target, value, var] ++ property.toList, '\x7b' ∉ text.toList)
    (hname : Text.nonBlank? var = some name)
    (hwidget : (w.scope sender).widget? target = some widget)
    (hallowed : w.host.refusal? .setProperty "" = none) :
    ∃ w', runAll (execute p (depth + 1) sender) [setting, getting] w = .done w' ∧
      w'.host.property? widget (Text.trim (property.getD Effect.usualProperty)) =
        some (.scalar (.str value)) ∧
      w'.store.get? name =
        if Text.trim (property.getD Effect.usualProperty) = property.getD Effect.usualProperty then
          some (.str value)
        else ((w.host.property? widget (property.getD Effect.usualProperty)).map
          PropertyValue.toScalar).or (w.store.get? name) := by
  have htarget : '\x7b' ∉ target.toList := hplain _ (by simp)
  have hvalue : '\x7b' ∉ value.toList := hplain _ (by simp)
  have hvar : '\x7b' ∉ var.toList := hplain _ (by simp)
  have hproperty : ∀ text ∈ property, '\x7b' ∉ text.toList := fun text htext =>
    hplain text (List.mem_append_right _ (Option.mem_toList.2 htext))
  generalize hread : property.getD Effect.usualProperty = read
  let written : World := { w with
    host := w.host.setProperty widget (Text.trim read) (.scalar (.str value)) }
  have hfirst : execute p (depth + 1) sender setting w = .done written := by
    rw [execute_setsProperty hset htarget hproperty hvalue hwidget hallowed, hread]
  have hwidget' : (written.scope sender).widget? target = some widget :=
    (Host.Keeps.setProperty w.host widget (Text.trim read) _).find? hwidget
  obtain ⟨w', hsecond, hhost, hfound⟩ := execute_getsProperty (p := p) hget htarget hproperty hvar
    hname hwidget' depth
  have hrun : runAll (execute p (depth + 1) sender) [setting, getting] w = .done w' := by
    simp only [runAll, hfirst, hsecond, Run.andThen]
  refine ⟨w', hrun, ?_, ?_⟩
  · rw [hhost]
    exact (w.host.property?_setProperty _ _ _ _ _).trans (if_pos ⟨rfl, rfl⟩)
  · have hfind : written.host.property? widget read = _ :=
      w.host.property?_setProperty_trim widget read (.scalar (.str value))
    rw [hfound, hread, hfind]
    split <;> rfl

/-- The usual property has no blanks around it. -/
example : Text.trim Effect.usualProperty = Effect.usualProperty := by decide +kernel

/-- Writes a property of a widget. -/
def Node.titling (target property : String) : Node where
  tag := "Set"
  attributes := Table.ofList [("target", target), ("property", property), ("value", "hi")]

/-- Reads a property of a widget. -/
def Node.quoting (target property : String) : Node where
  tag := "Get"
  attributes := Table.ofList [("target", target), ("property", property), ("var", "x")]

/-- A world with a widget and nothing else. -/
def World.titled : World where
  host := { widgets := Table.ofList [("lbl", ∅)] }

/-- The attributes of a node that is given by a list of them. -/
theorem Node.attr?_ofList {n : Node} {pairs : List (String × String)} {attr text : String}
    (h : n.attributes = Table.ofList pairs) (hlookup : pairs.reverse.lookup attr = some text) :
    n.attr? attr = some text := by
  rw [attr?, h, Table.ofList, Table.get?_insertAll, hlookup]
  rfl

theorem Node.titling_sets (target property : String) :
    (Node.titling target property).SetsProperty target (some property) "hi" where
  tag := hasTag_self _
  target := attr?_ofList rfl rfl
  property := attr?_ofList rfl rfl
  value := attr?_ofList rfl rfl

theorem Node.quoting_gets (target property : String) :
    (Node.quoting target property).GetsProperty target (some property) "x" where
  tag := hasTag_self _
  target := attr?_ofList rfl rfl
  property := attr?_ofList rfl rfl
  var := by
    have hvar : (Node.quoting target property).attr? "var" = some "x" := attr?_ofList rfl rfl
    rw [attrOf?, List.findSome?_cons, hvar]

/-- What the sender was given under the name of a property is read from it. -/
theorem get_reads_what_set_wrote_sender :
    ∃ w', runAll (execute {} 1 (some "lbl"))
        [.titling " $Sender " "Text", .quoting " $Sender " "Text"] .titled = .done w' ∧
      w'.host.property? "lbl" "Text" = some (.scalar (.str "hi")) ∧
      w'.store.get? "x" = some (.str "hi") := by
  have hplain : ∀ text ∈ [" $Sender ", "hi", "x"] ++ (some "Text").toList,
      '\x7b' ∉ text.toList := by
    decide +kernel
  have hname : Text.nonBlank? "x" = some "x" := by decide +kernel
  have hwidget : (World.titled.scope (some "lbl")).widget? " $Sender " = some "lbl" := by
    decide +kernel
  have htidy : Text.trim "Text" = "Text" := by decide +kernel
  obtain ⟨w', hrun, hwritten, hfound⟩ := get_reads_what_set_wrote {} 0 (some "lbl") .titled
    (Node.titling_sets _ "Text") (Node.quoting_gets _ "Text") hplain hname hwidget rfl
  exact ⟨w', hrun, (congrArg _ htidy.symm).trans hwritten, hfound.trans (if_pos htidy)⟩

/-- Not every `Get` reads what a `Set` with the same texts has written: with blanks around the
    property it finds nothing, and the variable does not come to be. -/
theorem get_misses_what_set_wrote :
    ¬ ∀ (p : Program) (depth : Nat) (sender : Option String) (w : World) (setting getting : Node)
      (target value var name widget : String) (property : Option String),
      setting.SetsProperty target property value → getting.GetsProperty target property var →
      (∀ text ∈ [target, value, var] ++ property.toList, '\x7b' ∉ text.toList) →
      Text.nonBlank? var = some name → (w.scope sender).widget? target = some widget →
      w.host.refusal? .setProperty "" = none →
      ∃ w', runAll (execute p (depth + 1) sender) [setting, getting] w = .done w' ∧
        w'.store.get? name = some (.str value) := by
  intro h
  obtain ⟨w', hrun, hread⟩ := h {} 0 none .titled _ _ "lbl" "hi" "x" "x" "lbl" (some " Text ")
    (Node.titling_sets _ _) (Node.quoting_gets _ _) (by decide +kernel) (by decide +kernel)
    (by decide +kernel) rfl
  have hnothing : ((runAll (execute {} 1 none) [.titling "lbl" " Text ", .quoting "lbl" " Text "]
      .titled).world?.bind (·.store.get? "x")).isSome = false := by decide +kernel
  rw [hrun, Run.world?, Option.bind_some, hread] at hnothing
  cases hnothing

end HandlerScript
