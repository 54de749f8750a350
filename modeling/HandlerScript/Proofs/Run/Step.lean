import HandlerScript.Execution

/-! What one command comes to.

    One equation for each kind of command, so that no later proof opens the dispatch on tags: a
    command either hands nodes on, or waits, or performs an effect of its own. A tag names a known
    command only if it spells its word, whatever the case of the letters. -/

namespace HandlerScript

namespace Command

/-- The tag of a command in small letters. -/
def word : Command → String
  | .set => "set"
  | .setVar => "setvar"
  | .get => "get"
  | .increment => "increment"
  | .decrement => "decrement"
  | .multiply => "multiply"
  | .divide => "divide"
  | .calculate => "calculate"
  | .toggle => "toggle"
  | .append => "append"
  | .clear => "clear"
  | .substring => "substring"
  | .replace => "replace"
  | .toUpper => "toupper"
  | .toLower => "tolower"
  | .length => "length"
  | .newGuid => "newguid"
  | .now => "now"
  | .callFunction => "callfunction"
  | .show => "show"
  | .hide => "hide"
  | .enable => "enable"
  | .disable => "disable"
  | .copyProperty => "copyproperty"
  | .navigate => "navigate"
  | .openWindow => "openwindow"
  | .closeWindow => "closewindow"
  | .copyToClipboard => "copytoclipboard"
  | .pasteFromClipboard => "pastefromclipboard"
  | .alert => "alert"
  | .log => "log"
  | .delay => "delay"
  | .branch => "if"
  | .switch => "switch"
  | .forEach => "foreach"
  | .whileLoop => "while"
  | .tryCatch => "trycatch"
  | .call => "call"
  | .sequence => "sequence"
  | .throw => "throw"
  | .unknown => ""

/-- The word of a known command is the text that it was found by. -/
theorem word_ofLower {t : String} : ofLower t ≠ .unknown → (ofLower t).word = t := by
  unfold ofLower
  split
  all_goals first | exact fun _ => rfl | exact fun h => absurd rfl h

/-- A tag that names a known command is spelled as the word of that command. -/
theorem lower_of_ofTag {tag : String} {c : Command} (h : ofTag tag = c) (hc : c ≠ .unknown) :
    Text.lower tag = c.word := by
  subst h
  exact (word_ofLower hc).symm

/-- A tag names the command that any other spelling of it names. -/
theorem ofTag_of_hasTag {node : Node} {tag : String} (h : node.hasTag tag = true) :
    ofTag node.tag = ofTag tag := by
  rw [ofTag, Text.sameLetters_iff.1 h, ofTag]

end Command

section Equations

variable {p : Program} {run : Runner} {sender : Option String} {node : Node} {w : World}

theorem step_branch (h : Command.ofTag node.tag = .branch) :
    step p run sender node w = runAll (run sender) (branchBody (w.scope sender) node) w := by
  delta step
  rw [h]

theorem step_switch (h : Command.ofTag node.tag = .switch) :
    step p run sender node w = runAll (run sender) (switchBody (w.scope sender) node) w := by
  delta step
  rw [h]

theorem step_forEach (h : Command.ofTag node.tag = .forEach) :
    step p run sender node w = forEach (w.scope sender) (runAll (run sender)) node w := by
  delta step
  rw [h]

theorem step_whileLoop (h : Command.ofTag node.tag = .whileLoop) :
    step p run sender node w = whileLoop p.limits sender (runAll (run sender)) node w := by
  delta step
  rw [h]

theorem step_tryCatch (h : Command.ofTag node.tag = .tryCatch) :
    step p run sender node w = tryCatch p.limits (w.scope sender) (runAll (run sender)) node w := by
  delta step
  rw [h]

theorem step_call (h : Command.ofTag node.tag = .call) :
    step p run sender node w = call p.registry (w.scope sender) (runAll (run sender)) node w := by
  delta step
  rw [h]

theorem step_sequence (h : Command.ofTag node.tag = .sequence) :
    step p run sender node w = runAll (run sender) node.children w := by
  delta step
  rw [h]

theorem step_delay (h : Command.ofTag node.tag = .delay) :
    step p run sender node w = delay p run (w.scope sender) node w := by
  delta step
  rw [h]

/-- A command that runs no others and does not wait performs its effect. -/
theorem step_leaf (hflow : (Command.ofTag node.tag).isControlFlow = false)
    (hdelay : Command.ofTag node.tag ≠ .delay) :
    step p run sender node w =
      w.perform ((Command.ofTag node.tag).effect (p.start.later w.elapsed) (w.scope sender) node) := by
  delta step
  generalize Command.ofTag node.tag = c at *
  cases c <;> first | contradiction | rfl

end Equations

/-- A command is one of those that hand nodes on, or it waits, or it performs its effect. -/
theorem Command.cases_step (c : Command) :
    c = .branch ∨ c = .switch ∨ c = .forEach ∨ c = .whileLoop ∨ c = .tryCatch ∨ c = .call ∨
      c = .sequence ∨ c = .delay ∨ (c.isControlFlow = false ∧ c ≠ .delay) := by
  cases c <;> decide

end HandlerScript
