import HandlerScript.Document
import HandlerScript.Execution

/-! Sessions: a program with the world it runs in.

    A session starts empty on a host. Loading a document sets its variables and registers its
    handlers; after that handlers are invoked as events come in. -/

namespace HandlerScript

structure Session where
  program : Program := {}
  world : World := {}
  /-- The fingerprint of the source loaded last. -/
  version : Option String := none

namespace Session

/-- The depth that commands may be nested to, calls of handlers included. -/
def depth : Nat := 10000

/-- A session on a host. -/
def start (host : Host) (limits : Limits) (moment : Moment) (seed : Nat) : Session :=
  { program := { limits := limits, start := moment }, world := { host := host, seed := seed } }

def store (s : Session) : Store := s.world.store

def host (s : Session) : Host := s.world.host

def registry (s : Session) : Registry := s.program.registry

/-- Sets a variable. -/
def set (s : Session) (name : String) (value : Scalar) : Session :=
  { s with world := s.world.set name value }

/-- Puts an event into the queue of the host. -/
def queue (s : Session) (e : Event) : Session :=
  { s with world := { s.world with host := s.world.host.queue e } }

/-- Takes the pending events of the host. -/
def pump (s : Session) : List Event × Session :=
  let (events, host) := s.world.host.pump
  (events, { s with world := { s.world with host := host } })

/-- Sets the variables of a document and registers its handlers, in order. -/
def load (s : Session) (d : Document) : Session :=
  { program := { s.program with registry := s.program.registry.registerAll d.handlers }
    world := d.vars.foldl (fun w v => w.set v.name v.value) s.world
    version := d.version.orElse fun _ => s.version }

/-- Loads the document of a tree. -/
def loadTree (s : Session) (root : Node) : Document × Session :=
  let d := Document.ofTree root
  (d, s.load d)

/-- Loads the document of a source; a source that holds none leaves the session as it is. -/
def loadSource (s : Session) (source : String) : Except Source.Error (Document × Session) :=
  match Document.parse source with
  | .ok d => .ok (d, s.load d)
  | .error e => .error e

/-- Runs one command. Gives nothing if the depth runs out. -/
def execute (s : Session) (node : Node) (sender : Option String) : Option (Option Fault × Session) :=
  match HandlerScript.execute s.program depth sender node s.world with
  | .done w => some (none, { s with world := w })
  | .fault f w => some (some f, { s with world := w })
  | .tooDeep => none

/-- Invokes a handler. Gives nothing if the depth runs out. -/
def invoke (s : Session) (name : String) (sender : Option String) : Option (Outcome × Session) :=
  (HandlerScript.invoke s.program depth name sender s.world).map fun (outcome, w) =>
    (outcome, { s with world := w })

end Session

end HandlerScript
