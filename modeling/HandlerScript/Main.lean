import HandlerScript.CommandLine.Answer
import Std.Time.DateTime.Timestamp

/-! The program: reads its arguments, its surroundings and the files it needs, and prints the
    answer. -/

namespace HandlerScript.CommandLine

/-- The text of a file. -/
def readText (path : String) : IO (Except Unreadable String) := do
  try
    return .ok (← IO.FS.readFile path)
  catch e =>
    match e with
    | .noFileOrDirectory _ _ _ => return .error .missing
    | .permissionDenied _ _ _ => return .error .forbidden
    | .inappropriateType _ code _ => return .error (if code = 20 then .notDirectory else .directory)
    | _ => return .error .notText

/-- The files of some names. -/
def readTexts (paths : List String) : IO (String → Except Unreadable String) := do
  let texts ← paths.mapM fun path => return (path, ← readText path)
  return fun path => (texts.lookup path).getD (.error .missing)

/-- The first environment file in the directories from here upwards. -/
def nearestEnvironmentFile : Nat → String → IO (Option String)
  | 0, _ => return none
  | steps + 1, directory => do
    match ← readText (directory ++ ".env") with
    | .ok text => return some text
    | .error _ => nearestEnvironmentFile steps (directory ++ "../")

/-- The variables of the environment in the form that the system keeps them in. -/
def variablesOf (text : String) : Table String :=
  Table.ofList ((Text.piecesAt '\x00' text.toList).filterMap fun piece =>
    match piece.span (· != '=') with
    | (name, _ :: value) => some (String.ofList name, String.ofList value)
    | (_, []) => none)

/-- What the program finds around it for a request. -/
def surroundings (i : Invocation) : IO Surroundings := do
  let here := (← IO.currentDir).toString
  let now ← Std.Time.Timestamp.now
  return {
    file := ← readTexts i.files
    environmentFile := ← nearestEnvironmentFile (Text.piecesAt '/' here.toList).length ""
    environment := variablesOf ((← readText "/proc/self/environ").toOption.getD "")
    moment := ⟨now.toNanosecondsSinceUnixEpoch.val, 0⟩
    seed := (← IO.getRandomBytes 16).foldl (fun n b => 256 * n + b.toNat) 0 }

def usage : String :=
  "Usage: cue [--config <CONFIG>] run <DOCUMENT> -H <HANDLER> [-n <TIMES>] [--sender <SENDER>] [--json]\n" ++
  "       cue [--config <CONFIG>] check <DOCUMENT>\n" ++
  "       cue [--config <CONFIG>] config\n"

end HandlerScript.CommandLine

open HandlerScript.CommandLine in
def main (args : List String) : IO UInt32 := do
  match Invocation.read args with
  | .error .helpAsked =>
    IO.print usage
    return 0
  | .error _ =>
    IO.eprint usage
    return 2
  | .ok i =>
    match (← surroundings i).answer i with
    | .ok answer =>
      IO.sleep answer.waited.toUInt32
      IO.print answer.text
      return 0
    | .error e =>
      IO.eprintln ("Error: " ++ e.message)
      return 1
