import HandlerScript.CommandLine.Report
import HandlerScript.CommandLine.Request
import HandlerScript.Environment.File
import HandlerScript.Settings.Layers

/-! Answers to requests on the command line.

    Settings are loaded first, so that their faults come before any others. A document then runs on a
    host of its own that knows every widget. -/

namespace HandlerScript.CommandLine

/-- Why a file cannot be read. -/
inductive Unreadable where
  | missing
  | directory
  | notDirectory
  | forbidden
  | notText
  deriving DecidableEq, Repr

def Unreadable.message : Unreadable → String
  | .missing => "No such file or directory (os error 2)"
  | .directory => "Is a directory (os error 21)"
  | .notDirectory => "Not a directory (os error 20)"
  | .forbidden => "Permission denied (os error 13)"
  | .notText => "stream did not contain valid UTF-8"

/-- What the program finds around it. -/
structure Surroundings where
  /-- The files by their names. -/
  file : String → Except Unreadable String
  /-- The text of the nearest environment file. -/
  environmentFile : Option String
  environment : Table String
  moment : Moment
  seed : Nat

/-- The files that a request may read. -/
def Invocation.files (i : Invocation) : List String :=
  let settings := i.settingsFile.getD "cue"
  let document := match i.request with
    | .run document _ _ _ _ | .check document => [document]
    | .settings => []
  Settings.fileNames settings ++ document

inductive Failure where
  | settings (e : Settings.Error)
  | unreadable (path : String) (reason : Unreadable)
  | source (text : String) (e : Source.Error)
  | invalidDocument (path text : String) (e : Source.Error)
  /-- Settings that cannot be written as TOML. -/
  | unwritable
  | tooDeep

def Failure.message : Failure → String
  | .settings e => e.message
  | .unreadable path reason => "Failed to read " ++ path ++ ": " ++ reason.message
  | .source text e => Document.errorMessage text e
  | .invalidDocument path text e => "Invalid document " ++ path ++ ": " ++ Document.errorMessage text e
  | .unwritable => "Failed to render configuration as TOML: out-of-range value for u64 type"
  | .tooDeep => "Handlers call each other without end"

/-- What is printed for a request, and after how many milliseconds. -/
structure Answer where
  text : String
  waited : Nat

/-- Invokes a handler a number of times. -/
def invokeTimes (handler : String) (sender : Option String) :
    Nat → Session → Option (List Outcome × Session)
  | 0, s => some ([], s)
  | n + 1, s => do
    let (outcome, s) ← s.invoke handler sender
    let (outcomes, s) ← invokeTimes handler sender n s
    return (outcome :: outcomes, s)

namespace Surroundings

def settings (w : Surroundings) (name : Option String) : Except Failure Settings :=
  let vars := match w.environmentFile with
    | some text => Environment.withFile w.environment text
    | none => w.environment
  match Settings.load (fun name => (w.file name).toOption) name vars with
  | .ok s => .ok s
  | .error e => .error (.settings e)

def document (w : Surroundings) (path : String) : Except Failure String :=
  match w.file path with
  | .ok text => .ok text
  | .error reason => .error (.unreadable path reason)

/-- The report on running a handler of a document. -/
def report (w : Surroundings) (limits : Limits) (source handler : String) (times : Nat)
    (sender : Option String) : Except Failure Report :=
  let start := Session.start { permissive := true } limits w.moment w.seed
  match start.loadSource source with
  | .error e => .error (.source source e)
  | .ok (_, s) =>
    match invokeTimes handler sender times s with
    | some (outcomes, s) => .ok (Report.ofSession outcomes s)
    | none => .error .tooDeep

/-- The answer to a request. -/
def answer (w : Surroundings) (i : Invocation) : Except Failure Answer := do
  let settings ← w.settings i.settingsFile
  match i.request with
  | .run path handler times sender json =>
    let r ← w.report settings.limits (← w.document path) handler times sender
    return ⟨if json then r.toJson.prettyText ++ "\n" else r.text, r.waited⟩
  | .check path =>
    let source ← w.document path
    match Document.parse source with
    | .ok d => return ⟨d.summary, 0⟩
    | .error e => throw (.invalidDocument path source e)
  | .settings =>
    match settings.toToml? with
    | some text => return ⟨text, 0⟩
    | none => throw .unwritable

end Surroundings

end HandlerScript.CommandLine
