/-! The limits that programs run with. -/

namespace HandlerScript

structure Limits where
  /-- How often the body of one `While` may run. -/
  maxLoopIterations : Nat := 10000
  /-- The longest wait of one `Delay`, in milliseconds. -/
  maxDelay : Nat := 60000
  /-- How long a `Delay` waits between two looks at the events of the host. -/
  pumpInterval : Nat := 10
  /-- The variable that a caught fault goes to when none is named. -/
  errorVariable : String := "error"
  deriving DecidableEq, Repr

end HandlerScript
