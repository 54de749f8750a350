import HandlerScript.Limits
import HandlerScript.Number.Shortest
import HandlerScript.Settings.Tree
import HandlerScript.Toml.Text

/-! Settings: the limits that programs run with, and how much is logged.

    Settings are read from a tree of values and are generous about kinds: a count may be given as a
    number, a truth value or a text, and a text as anything but a tree. What is missing has its usual
    value. -/

namespace HandlerScript

structure Settings where
  limits : Limits := {}
  level : String := "info"
  deriving DecidableEq, Repr

namespace Settings

/-- The greatest count, which has 64 bits. -/
def greatestCount : Nat := UInt64.size - 1

/-- A count by a text: a word of consent or refusal, or a numeral. -/
def countOfText? (s : String) : Option Nat :=
  match Text.toSmall s with
  | "true" | "on" | "yes" => some 1
  | "false" | "off" | "no" => some 0
  | _ => (Decimal.signedNat? s.toList).filter (· ≤ greatestCount)

/-- The count that a value stands for. Numbers are rounded, halves up, and kept in range. -/
def count? : Value → Option Nat
  | .bool b => some b.toNat
  | .int n => if 0 ≤ n then some n.toNat else none
  | .float x => some (Binary64.truncate 0 greatestCount (Binary64.toIntegral .halfAway x)).toNat
  | .string s => countOfText? s
  | .null | .array _ | .table _ => none

/-- The text that a value stands for. -/
def text? : Value → Option String
  | .bool b => some (if b then "true" else "false")
  | .int n => some (Decimal.intText n)
  | .float x => some (Decimal.plainText x)
  | .string s => some s
  | .null | .array _ | .table _ => none

/-- The values of named fields in a section: by name in a table, by position in an array. A section
    that is neither is refused. -/
def fields? (names : List String) : Option Value → Option (String → Option Value)
  | none => some fun _ => none
  | some (.table entries) => some fun name => entries.lookup name
  | some (.array items) => some fun name => (names.zip items).lookup name
  | some _ => none

/-- Reads a field that may be missing. -/
def field? {α : Type} (read? : Value → Option α) (usual : α) : Option Value → Option α
  | none => some usual
  | some v => read? v

/-- The names of the limits, in order. -/
def limitNames : List String :=
  ["max_loop_iterations", "max_delay_ms", "pump_interval_ms", "default_error_variable"]

def limits? (section' : Option Value) : Option Limits := do
  let field ← fields? limitNames section'
  let usual : Limits := {}
  return {
    maxLoopIterations := ← field? count? usual.maxLoopIterations (field "max_loop_iterations")
    maxDelay := ← field? count? usual.maxDelay (field "max_delay_ms")
    pumpInterval := ← field? count? usual.pumpInterval (field "pump_interval_ms")
    errorVariable := ← field? text? usual.errorVariable (field "default_error_variable") }

def level? (section' : Option Value) : Option String := do
  let field ← fields? ["level"] section'
  field? text? "info" (field "level")

/-- The settings that a tree gives. -/
def ofTree? (tree : Tree) : Option Settings := do
  return ⟨← limits? (tree.lookup "interpreter"), ← level? (tree.lookup "logging")⟩

/-- The settings as a tree. -/
def toTree (s : Settings) : Tree :=
  [("interpreter", .table [
      ("max_loop_iterations", .int s.limits.maxLoopIterations),
      ("max_delay_ms", .int s.limits.maxDelay),
      ("pump_interval_ms", .int s.limits.pumpInterval),
      ("default_error_variable", .string s.limits.errorVariable)]),
    ("logging", .table [("level", .string s.level)])]

/-- The settings as a TOML document; counts beyond 63 bits have no TOML form. -/
def toToml? (s : Settings) : Option String :=
  let l := s.limits
  let count (name : String) (n : Nat) : String := name ++ " = " ++ Decimal.natText n ++ "\n"
  let text (name value : String) : String :=
    name ++ " = " ++ String.ofList (Toml.quoted value.toList) ++ "\n"
  if [l.maxLoopIterations, l.maxDelay, l.pumpInterval].all (· < 0x8000000000000000) then
    some ("[interpreter]\n" ++ count "max_loop_iterations" l.maxLoopIterations ++
      count "max_delay_ms" l.maxDelay ++ count "pump_interval_ms" l.pumpInterval ++
      text "default_error_variable" l.errorVariable ++ "\n[logging]\n" ++ text "level" s.level)
  else none

end Settings

end HandlerScript
