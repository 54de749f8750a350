import HandlerScript.Scalar.Basic
import HandlerScript.Table

/-! The store of variables.

    Names are case-sensitive and there are no scopes. A variable appears with its first value and
    stays; arithmetic takes an absent variable for zero and leaves a number. -/

namespace HandlerScript

inductive Arithmetic where
  | add
  | subtract
  | multiply
  | divide
  deriving DecidableEq, Repr

/-- The result of an arithmetic step; dividing by zero of either sign is refused. -/
def Arithmetic.apply? : Arithmetic → Float → Float → Option Float
  | .add, x, y => some (x + y)
  | .subtract, x, y => some (x - y)
  | .multiply, x, y => some (x * y)
  | .divide, x, y => if y == 0.0 then none else some (x / y)

structure Store where
  vars : Table Scalar := ∅

namespace Store

instance : Inhabited Store := ⟨{}⟩

def get? (s : Store) (name : String) : Option Scalar := s.vars.get? name

def contains (s : Store) (name : String) : Bool := s.vars.contains name

def set (s : Store) (name : String) (value : Scalar) : Store := ⟨s.vars.insert name value⟩

def size (s : Store) : Nat := s.vars.size

def isEmpty (s : Store) : Bool := s.vars.isEmpty

/-- The variables in increasing order of their names. -/
def snapshot (s : Store) : List (String × Scalar) := s.vars.entries

/-- A variable as a number, zero if it is absent. -/
def number (s : Store) (name : String) : Float :=
  match s.get? name with
  | some v => v.toFloat
  | none => 0.0

/-- The number that an arithmetic step would leave in a variable, unless it is refused. -/
def result? (s : Store) (op : Arithmetic) (name : String) (operand : Scalar) : Option Float :=
  op.apply? (s.number name) operand.toFloat

/-- Performs an arithmetic step on a variable. A refused step changes nothing. -/
def apply (s : Store) (op : Arithmetic) (name : String) (operand : Scalar) : Option Float × Store :=
  match s.result? op name operand with
  | some x => (some x, s.set name (.float x))
  | none => (none, s)

end Store

end HandlerScript
