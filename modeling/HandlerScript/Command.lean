import HandlerScript.Text.Letters

/-! Commands by their tags.

    A tag names a command whatever the case of its letters. Tags without a command of their own go to
    the host. -/

namespace HandlerScript

inductive Command where
  | set
  | setVar
  | get
  | increment
  | decrement
  | multiply
  | divide
  | calculate
  | toggle
  | append
  | clear
  | substring
  | replace
  | toUpper
  | toLower
  | length
  | newGuid
  | now
  | callFunction
  | show
  | hide
  | enable
  | disable
  | copyProperty
  | navigate
  | openWindow
  | closeWindow
  | copyToClipboard
  | pasteFromClipboard
  | alert
  | log
  | delay
  | branch
  | switch
  | forEach
  | whileLoop
  | tryCatch
  | call
  | sequence
  | throw
  | unknown
  deriving DecidableEq, Repr

namespace Command

/-- The command of a tag in small letters. -/
def ofLower : String → Command
  | "set" => .set
  | "setvar" => .setVar
  | "get" => .get
  | "increment" => .increment
  | "decrement" => .decrement
  | "multiply" => .multiply
  | "divide" => .divide
  | "calculate" => .calculate
  | "toggle" => .toggle
  | "append" => .append
  | "clear" => .clear
  | "substring" => .substring
  | "replace" => .replace
  | "toupper" => .toUpper
  | "tolower" => .toLower
  | "length" => .length
  | "newguid" => .newGuid
  | "now" => .now
  | "callfunction" => .callFunction
  | "show" => .show
  | "hide" => .hide
  | "enable" => .enable
  | "disable" => .disable
  | "copyproperty" => .copyProperty
  | "navigate" => .navigate
  | "openwindow" => .openWindow
  | "closewindow" => .closeWindow
  | "copytoclipboard" => .copyToClipboard
  | "pastefromclipboard" => .pasteFromClipboard
  | "alert" => .alert
  | "log" => .log
  | "delay" => .delay
  | "if" => .branch
  | "switch" => .switch
  | "foreach" => .forEach
  | "while" => .whileLoop
  | "trycatch" => .tryCatch
  | "call" => .call
  | "sequence" => .sequence
  | "throw" => .throw
  | _ => .unknown

/-- The command that a tag names. -/
def ofTag (tag : String) : Command :=
  ofLower (Text.lower tag)

/-- Commands that run other commands in the order of the program. -/
def isControlFlow : Command → Bool
  | .branch | .switch | .forEach | .whileLoop | .tryCatch | .call | .sequence => true
  | _ => false

end Command

end HandlerScript
