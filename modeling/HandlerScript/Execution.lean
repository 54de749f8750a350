import HandlerScript.Condition
import HandlerScript.Effect.Leaf
import HandlerScript.Handler
import HandlerScript.Limits

/-! Running commands.

    Commands run one after the other until one faults. `execute` is a recursion on the depth that is
    left for commands inside commands; each kind of command is written over the function that runs
    the commands inside it. Loops are recursions of their own: over the iterations that a ceiling
    still allows, over a count, over the items of a list. So only handlers that call each other
    without end can use up every depth. -/

namespace HandlerScript

/-- What a program consists of besides the command at hand. -/
structure Program where
  registry : Registry := {}
  limits : Limits := {}
  /-- The moment when the program started. -/
  start : Moment := ⟨0, 0⟩

/-- A way to run one command for a sender. -/
abbrev Runner := Option String → Node → World → Run

/-- How an invocation of a handler ended. -/
inductive Outcome where
  | completed
  | faulted (message : String)
  | unknownHandler
  deriving DecidableEq, Repr

/-- Runs commands in order, up to the first fault. -/
def runAll (run : Node → World → Run) : List Node → World → Run
  | [], w => .done w
  | n :: ns, w => (run n w).andThen (runAll run ns)

/-! ### Branches -/

/-- Whether the condition of a node holds; a missing one is empty and so false. -/
def conditionHolds (s : Scope) (node : Node) : Bool :=
  Condition.holds s ((node.attr? "condition").getD "")

/-- The children of the first child with a tag, nothing if there is none. -/
def bodyOf (node : Node) (tag : String) : List Node :=
  match node.child? tag with
  | some child => child.children
  | none => []

/-- The commands that an `If` runs: its `Then`, or the children that are no branches; else the first
    `ElseIf` whose condition holds; else the `Else`. -/
def branchBody (s : Scope) (node : Node) : List Node :=
  if conditionHolds s node then
    match node.child? "Then" with
    | some body => body.children
    | none => node.childrenExcept ["Then", "ElseIf", "Else"]
  else match (node.childrenTagged "ElseIf").find? (conditionHolds s) with
    | some branch => branch.children
    | none => bodyOf node "Else"

/-- The commands that a `Switch` runs: the first `Case` with the same trimmed value, else the
    `Default`. -/
def switchBody (s : Scope) (node : Node) : List Node :=
  let subject := Text.trim (s.attrText node "value")
  match (node.childrenTagged "Case").find? fun c => Text.trim (s.attrText c "value") == subject with
  | some body => body.children
  | none => bodyOf node "Default"

/-! ### Loops -/

/-- Runs a body as long as a condition holds, at most `n` times. If it still holds then, the world is
    told. -/
def repeatWhile (holds : World → Bool) (stopped : World → World) (body : World → Run) :
    Nat → World → Run
  | 0, w => if holds w then .done (stopped w) else .done w
  | n + 1, w =>
    if holds w then (body w).andThen (repeatWhile holds stopped body n) else .done w

/-- Runs a body for `n` numbers from `i` on. -/
def forCount (body : Nat → World → Run) : Nat → Nat → World → Run
  | 0, _, w => .done w
  | n + 1, i, w => (body i w).andThen (forCount body n (i + 1))

/-- Runs a body for the items of a list, numbered from `i` on. -/
def forItems (body : Nat → String → World → Run) : Nat → List String → World → Run
  | _, [], w => .done w
  | i, t :: ts, w => (body i t w).andThen (forItems body (i + 1) ts)

/-- How many times a `ForEach` with a count runs its body. -/
def loopCount (text : String) : Nat :=
  min (Binary64.toCount (Scalar.numberOf text)) Int64.maxValue.toNatClampNeg

/-- `ForEach`: the body once for each number below a count, or for each item of a list, with the index
    and the item in variables. -/
def forEach (s : Scope) (all : List Node → World → Run) (node : Node) (w : World) : Run :=
  let item := (s.attrOf? node ["item", "var"]).getD "item"
  let index := (s.attr? node "index").getD "index"
  let round (i : Nat) (value : Scalar) (w : World) : Run :=
    all node.children ((w.set index (.int (Int64.ofNat i))).set item value)
  match s.attr? node "count" with
  | some count => forCount (fun i => round i (.int (Int64.ofNat i))) (loopCount count) 0 w
  | none => forItems (fun i t => round i (.str t)) 0
      (Text.items ((s.attrOf? node ["items", "in"]).getD "")) w

/-- `While`: the body as long as the condition holds, up to the ceiling. -/
def whileLoop (limits : Limits) (sender : Option String) (all : List Node → World → Run) (node : Node)
    (w : World) : Run :=
  let ceiling := limits.maxLoopIterations
  let message := "While loop stopped after " ++ Decimal.natText ceiling ++ " iterations"
  repeatWhile (fun w => conditionHolds (w.scope sender) node) (·.log .warn message)
    (all node.children) ceiling w

/-! ### Faults -/

/-- The variable that a `TryCatch` puts the message of a fault into. -/
def errorVariable (limits : Limits) (s : Scope) (node : Node) : String :=
  ((s.attrOf? node ["errorVar", "errorVariable"]).bind Text.nonBlank?).getD limits.errorVariable

/-- The commands that a `TryCatch` tries. -/
def tryBody (node : Node) : List Node :=
  match node.child? "Try" with
  | some body => body.children
  | none => node.childrenExcept ["Catch", "Finally"]

/-- Runs the last part of a `TryCatch` after what came before; a fault of the last part wins. -/
def withFinally (all : List Node → World → Run) (last : List Node) : Run → Run
  | .done w => all last w
  | .fault f w => (all last w).andThen (.fault f)
  | .tooDeep => .tooDeep

/-- `TryCatch`: a fault of the tried commands is recorded and the `Catch` runs; the `Finally` runs in
    any case. -/
def tryCatch (limits : Limits) (s : Scope) (all : List Node → World → Run) (node : Node) (w : World) :
    Run :=
  let attempt :=
    match all (tryBody node) w with
    | .fault f w =>
      all (bodyOf node "Catch")
        ((w.log .debug ("Caught fault: " ++ f.display)).set (errorVariable limits s node)
          (.str f.message))
    | r => r
  withFinally all (bodyOf node "Finally") attempt

/-! ### Other handlers -/

/-- `Call`: the commands of a handler in place. -/
def call (registry : Registry) (s : Scope) (all : List Node → World → Run) (node : Node) (w : World) :
    Run :=
  match s.attrOf? node ["handler", "name"] with
  | none => .done w
  | some text =>
    let name := Text.trim text
    match registry.get? name with
    | some handler => all handler.body w
    | none => .done (w.log .warn ("Call to unknown handler `" ++ name ++ "` skipped"))

/-- Invokes a handler. A fault goes no further: it is logged and becomes the outcome. Gives nothing
    if the depth runs out. -/
def invokeWith (registry : Registry) (run : Runner) (name : String) (sender : Option String)
    (w : World) : Option (Outcome × World) :=
  match registry.get? name with
  | none => some (.unknownHandler, w.log .warn ("No handler named `" ++ name ++ "`"))
  | some handler =>
    match runAll (run sender) handler.body w with
    | .done w => some (.completed, w)
    | .fault f w =>
      some (.faulted f.display, w.log .error ("Handler `" ++ name ++ "` failed: " ++ f.display))
    | .tooDeep => none

/-- Invokes the handlers of events in order, whatever their outcomes. -/
def handleAll (registry : Registry) (run : Runner) : List Event → World → Run
  | [], w => .done w
  | e :: es, w =>
    match invokeWith registry run e.handler e.sender w with
    | some (_, w) => handleAll registry run es w
    | none => .tooDeep

/-- Takes the pending events of the host and handles them. -/
def pumpEvents (registry : Registry) (run : Runner) (w : World) : Run :=
  let (events, host) := w.host.pump
  handleAll registry run events { w with host := host }

/-- Looks at the events of the host, again and again until a point in time; `rounds` bounds how
    often. -/
def waitUntil (p : Program) (run : Runner) (deadline : Nat) : Nat → World → Run
  | 0, w => .done w
  | rounds + 1, w =>
    (pumpEvents p.registry run w).andThen fun w =>
      if deadline ≤ w.elapsed then .done w
      else
        let slice := min (max p.limits.pumpInterval 1) (deadline - w.elapsed)
        waitUntil p run deadline rounds { w with elapsed := w.elapsed + slice }

/-- `Delay`: waits, and handles the events of the host meanwhile. -/
def delay (p : Program) (run : Runner) (s : Scope) (node : Node) (w : World) : Run :=
  let requested := ((s.attrOf? node ["ms", "milliseconds"]).map Scalar.numberOf).getD 0.0
  let ms := min (Binary64.toCount requested) p.limits.maxDelay
  waitUntil p run (w.elapsed + ms) (ms + 1) w

/-! ### All commands -/

/-- Runs a command, given how to run the commands inside it. -/
def step (p : Program) (run : Runner) : Runner := fun sender node w =>
  let s := w.scope sender
  let all := runAll (run sender)
  match Command.ofTag node.tag with
  | .branch => all (branchBody s node) w
  | .switch => all (switchBody s node) w
  | .forEach => forEach s all node w
  | .whileLoop => whileLoop p.limits sender all node w
  | .tryCatch => tryCatch p.limits s all node w
  | .call => call p.registry s all node w
  | .sequence => all node.children w
  | .delay => delay p run s node w
  | command => w.perform (command.effect (p.start.later w.elapsed) s node)

/-- Runs a command within a depth. -/
def execute (p : Program) : Nat → Runner
  | 0 => fun _ _ _ => .tooDeep
  | depth + 1 => step p (execute p depth)

/-- Invokes a handler within a depth. -/
def invoke (p : Program) (depth : Nat) : String → Option String → World → Option (Outcome × World) :=
  invokeWith p.registry (execute p depth)

end HandlerScript
