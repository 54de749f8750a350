import HandlerScript.Effect.Basic
import HandlerScript.Expression

/-! Commands on variables: assignments, arithmetic and reading a widget property. -/

namespace HandlerScript.Effect

/-- The property of widgets that is meant when none is named. -/
def usualProperty : String := "Text"

/-- Writes a property of the widget that a text names. -/
def writeProperty (s : Scope) (target property : String) (value : PropertyValue) : Effect :=
  onWidget s target fun widget =>
    unlessRefused s .setProperty "" (.setProperty widget (Text.trim property) value)

/-- The property that a command names by an attribute. -/
def propertyName (s : Scope) (node : Node) (attr : String) : String :=
  (s.attr? node attr).getD usualProperty

/-- `Set`: a text into a widget property if there is a target, else into a variable, as text unless a
    type is given. -/
def set (s : Scope) (node : Node) : Effect :=
  let value := s.attrText node "value"
  match s.attr? node "target" with
  | some target => writeProperty s target (propertyName s node "property") (.scalar (.str value))
  | none =>
    match s.target? node with
    | none => warn "Set without `target` or `var` skipped"
    | some name => .assign name (match s.attr? node "type" with
      | some kind => Scalar.typed value kind
      | none => .str value)

/-- `SetVar`: a value into a variable, inferred unless a type is given. -/
def setVar (s : Scope) (node : Node) : Effect :=
  onTarget s node fun name =>
    let value := s.attrText node "value"
    .assign name (match s.attr? node "type" with
      | some kind => Scalar.typed value kind
      | none => Scalar.infer value)

/-- `Get`: a widget property into a variable; an absent property leaves the variable alone. -/
def get (s : Scope) (node : Node) : Effect :=
  match s.attr? node "target", s.target? node with
  | some target, some name =>
    onWidget s target fun widget =>
      match s.host.property? widget (propertyName s node "property") with
      | some value => .assign name value.toScalar
      | none => .nothing
  | _, _ => .nothing

/-- `Increment`, `Decrement`, `Multiply` and `Divide`, by one unless an operand is given. -/
def arithmetic (op : Arithmetic) (s : Scope) (node : Node) : Effect :=
  onTarget s node fun name =>
    let operand := ((s.attrOf? node ["by", "value"]).map Scalar.infer).getD (.int 1)
    match s.store.result? op name operand with
    | some x => .assign name (.float x)
    | none => warn ("Division of `" ++ name ++ "` by zero ignored")

/-- `Calculate`: the value of an expression into a variable. -/
def calculate (s : Scope) (node : Node) : Effect :=
  onTarget s node fun name =>
    .assign name (.float (Expression.value (s.attrText node "expression")))

/-- `Toggle`: the opposite of a variable's truth; an absent variable counts as false. -/
def toggle (s : Scope) (node : Node) : Effect :=
  onTarget s node fun name =>
    .assign name (.bool !((s.store.get? name).map Scalar.truth).getD false)

/-- `Append`: a text behind the text of a variable. -/
def append (s : Scope) (node : Node) : Effect :=
  onTarget s node fun name =>
    .assign name (.str (((s.store.get? name).map Scalar.text).getD "" ++ s.attrText node "value"))

/-- `Clear`: the empty text into a variable. -/
def clear (s : Scope) (node : Node) : Effect :=
  onTarget s node fun name => .assign name (.str "")

end HandlerScript.Effect
