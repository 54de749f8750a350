import HandlerScript.Effect.Leaf

/-! What the effect of a command depends on.

    A command that runs no others reads the attributes of its node and the text without the blanks
    around it; the tag matters only to commands that the host may add. Of the scope it reads what texts
    resolve to, what the variables are, and how the host answers. Nodes that are alike in these have
    the same effect in scopes that are alike in these, whatever their children are and whatever the
    host has recorded. -/

namespace HandlerScript

/-- Two nodes that have the same attributes to look up and the same text. -/
structure Node.ReadsAs (n n' : Node) : Prop where
  attr : ∀ name, n'.attr? name = n.attr? name
  content : n'.content? = n.content?

theorem Node.hasTag_congr {n n' : Node} (h : n'.tag = n.tag) (tag : String) :
    n'.hasTag tag = n.hasTag tag := by
  rw [hasTag, hasTag, h]

theorem Node.attr?_congr {n n' : Node} (h : n'.attributes = n.attributes) (name : String) :
    n'.attr? name = n.attr? name := by
  rw [attr?, attr?, h]

theorem Node.ReadsAs.of_eq {n n' : Node} (hattr : n'.attributes = n.attributes)
    (htext : n'.text = n.text) : n.ReadsAs n' :=
  ⟨attr?_congr hattr, by rw [content?, content?, htext]⟩

/-- Two hosts that answer alike when a command asks them. -/
structure Host.AnswersAs (h h' : Host) : Prop where
  property : h'.property? = h.property?
  refusal : h'.refusal? = h.refusal?
  clipboard : h'.clipboard = h.clipboard
  function : h'.callFunction? = h.callFunction?
  command : h'.addsCommand = h.addsCommand
  failures : h'.failures = h.failures

/-- Two scopes in which texts resolve to the same and name the same widgets, variables have the same
    values, and the hosts answer alike. -/
structure Scope.ReadsAs (s s' : Scope) : Prop where
  resolve : s'.resolve = s.resolve
  widget : s'.widget? = s.widget?
  store : s'.store = s.store
  host : s.host.AnswersAs s'.host

theorem Host.AnswersAs.refl (h : Host) : h.AnswersAs h := ⟨rfl, rfl, rfl, rfl, rfl, rfl⟩

theorem Scope.ReadsAs.refl (s : Scope) : s.ReadsAs s := ⟨rfl, rfl, rfl, .refl s.host⟩

section

variable {n n' : Node} {s s' : Scope} (h : n.ReadsAs n') (hs : s.ReadsAs s')

include h hs

theorem Scope.attr?_readsAs : s'.attr? n' = s.attr? n := by
  funext name
  rw [attr?, attr?, h.attr, hs.resolve]

theorem Scope.attrOf?_readsAs : s'.attrOf? n' = s.attrOf? n := by
  funext names
  rw [attrOf?, attrOf?, Node.attrOf?, Node.attrOf?, funext h.attr, hs.resolve]

theorem Scope.attrText_readsAs : s'.attrText n' = s.attrText n := by
  funext name
  rw [attrText, attrText, attr?_readsAs h hs]

theorem Scope.target?_readsAs : s'.target? n' = s.target? n := by
  rw [target?, target?, attrOf?_readsAs h hs]

theorem Scope.messageText_readsAs : s'.messageText n' = s.messageText n := by
  rw [messageText, messageText, h.attr, h.content, hs.resolve]

theorem Effect.onTarget_readsAs : Effect.onTarget s' n' = Effect.onTarget s n := by
  funext e
  rw [onTarget, onTarget, Scope.target?_readsAs h hs]

omit h

theorem Effect.onWidget_readsAs : Effect.onWidget s' = Effect.onWidget s := by
  funext text e
  rw [onWidget, onWidget, hs.widget]

theorem Effect.unlessRefused_readsAs : Effect.unlessRefused s' = Effect.unlessRefused s := by
  funext op subject e
  rw [unlessRefused, unlessRefused, hs.host.refusal]

theorem Effect.writeProperty_readsAs : Effect.writeProperty s' = Effect.writeProperty s := by
  funext target property value
  rw [writeProperty, writeProperty, onWidget_readsAs hs, unlessRefused_readsAs hs]

include h

/-- Nodes that read alike have the same effect in scopes that read alike. -/
theorem Effect.effect_readsAs (c : Command) (htag : c = .unknown → n'.tag = n.tag)
    (moment : Moment) : c.effect moment s' n' = c.effect moment s n := by
  have hattr := Scope.attr?_readsAs h hs
  have hattrOf := Scope.attrOf?_readsAs h hs
  have htext := Scope.attrText_readsAs h hs
  have htarget? := Scope.target?_readsAs h hs
  have hmessage := Scope.messageText_readsAs h hs
  have htarget := Effect.onTarget_readsAs h hs
  have hwidget := Effect.onWidget_readsAs hs
  have hrefused := Effect.unlessRefused_readsAs hs
  have hwrite := Effect.writeProperty_readsAs hs
  unfold Command.effect
  cases c with
  | set => simp only [set, propertyName, hattr, htext, htarget?, hwrite]
  | get => simp only [get, propertyName, hattr, htarget?, hwidget, hs.host.property]
  | increment | decrement | multiply | divide =>
    simp only [arithmetic, hattrOf, htarget, hs.store]
  | setVar => simp only [setVar, hattr, htext, htarget]
  | calculate => simp only [calculate, htext, htarget]
  | toggle => simp only [toggle, htarget, hs.store]
  | append => simp only [append, htext, htarget, hs.store]
  | clear => simp only [clear, htarget]
  | substring => simp only [substring, hattr, htext, htarget]
  | replace => simp only [replace, hattrOf, htext, htarget]
  | toUpper => simp only [toUpper, htext, htarget]
  | toLower => simp only [toLower, htext, htarget]
  | length => simp only [length, htext, htarget]
  | newGuid => simp only [newGuid, htarget]
  | now => simp only [now, hattr, htarget]
  | callFunction => simp only [callFunction, hattrOf, htext, htarget, hs.host.function]
  | «show» | hide | enable | disable => simp only [flag, hattr, hwrite]
  | copyProperty =>
    simp only [copyProperty, propertyName, hattr, hwidget, hwrite, hs.host.property]
  | navigate => simp only [goTo, hattrOf, hrefused]
  | openWindow => simp only [showWindow, hattrOf, hrefused]
  | closeWindow => simp only [hideWindow, hattrOf, hrefused]
  | copyToClipboard => simp only [copyToClipboard, htext, hrefused]
  | pasteFromClipboard => simp only [pasteFromClipboard, htarget, hrefused, hs.host.clipboard]
  | alert => simp only [showAlert, htext, hmessage, hrefused]
  | log => simp only [writeLog, hattr, hmessage]
  | throw => simp only [throwFault, hmessage]
  | unknown => simp only [pluginCommand, htag rfl, hs.host.command, hs.host.failures]
  | delay | branch | switch | forEach | whileLoop | tryCatch | call | sequence => rfl

end

end HandlerScript
