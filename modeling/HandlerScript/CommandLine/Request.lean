import HandlerScript.Number.Decimal
import HandlerScript.Text.Pieces

/-! Requests on the command line.

    A request is a verb with its options and at most one document. Options may stand anywhere behind
    the verb, and the one for the settings file also before it. A value follows its option as the next
    argument, behind an equals sign, or right behind a single letter. Behind two dashes nothing is an
    option any more. The first fault found decides; a value is looked at only when the argument behind
    it is one that is known. -/

namespace HandlerScript.CommandLine

inductive Verb where
  | run
  | check
  | config
  deriving DecidableEq, Repr

inductive Flag where
  | config
  | handler
  | times
  | sender
  | json
  | help
  deriving DecidableEq, Repr

/-- What a value on the command line belongs to. -/
inductive Slot where
  | flag (f : Flag)
  | document
  deriving DecidableEq, Repr

/-- Why arguments are no request. -/
inductive UsageError where
  | helpAsked
  | nothingAsked
  | missingVerb
  | unknownVerb
  | unknownArgument
  | missingValue
  | unneededValue
  | badValue
  | repeated
  | missingArgument
  deriving DecidableEq, Repr

/-- What is asked for. -/
inductive Request where
  | run (document handler : String) (times : Nat) (sender : Option String) (json : Bool)
  | check (document : String)
  | settings
  deriving DecidableEq, Repr

/-- A request, and the settings file to use for it. -/
structure Invocation where
  settingsFile : Option String
  request : Request
  deriving DecidableEq, Repr

def Verb.ofName? : String → Option Verb
  | "run" => some .run
  | "check" => some .check
  | "config" => some .config
  | _ => none

/-- The verb that only asks for help. -/
def helpVerb : String := "help"

def isVerb (arg : String) : Bool := arg == helpVerb || (Verb.ofName? arg).isSome

namespace Flag

/-- Whether a flag stands with a value. -/
def takesValue : Flag → Bool
  | .json | .help => false
  | _ => true

/-- Whether a flag may stand behind a verb, or before any. -/
def allowed (verb : Option Verb) : Flag → Bool
  | .config | .help => true
  | _ => verb == some .run

def ofName? (verb : Option Verb) (name : List Char) : Option Flag :=
  let flag : Option Flag := match String.ofList name with
    | "config" => some .config
    | "handler" => some .handler
    | "times" => some .times
    | "sender" => some .sender
    | "json" => some .json
    | "help" => some .help
    | _ => none
  flag.filter (·.allowed verb)

def ofLetter? (verb : Option Verb) (c : Char) : Option Flag :=
  let flag : Option Flag := match c with
    | 'H' => some .handler
    | 'n' => some .times
    | 'h' => some .help
    | _ => none
  flag.filter (·.allowed verb)

end Flag

/-- A number of invocations, which has 64 bits. -/
def times? (value : String) : Option Nat :=
  (Decimal.signedNat? value.toList).filter (· < UInt64.size)

/-- Refuses values that a slot cannot take: names of files are not empty, and the number of
    invocations is a number. -/
def validate (value : String) : Slot → Except UsageError Unit
  | .document | .flag .config => if value.isEmpty then .error .missingValue else .ok ()
  | .flag .times => if (times? value).isNone then .error .badValue else .ok ()
  | .flag _ => .ok ()

/-- The arguments read so far. -/
structure Draft where
  given : List (Slot × String) := []
  /-- A slot whose value has not been looked at or has yet to come. -/
  pending : Option (Slot × Option String) := none

namespace Draft

def has (d : Draft) (slot : Slot) : Bool := (d.given.lookup slot).isSome

/-- Whether the next argument is the value of an option. -/
def awaits (d : Draft) : Bool :=
  match d.pending with
  | some (_, none) => true
  | _ => false

/-- Takes a value for a slot. -/
def accept (d : Draft) (slot : Slot) (value : String) : Except UsageError Draft := do
  if d.has slot then throw .repeated
  validate value slot
  return { d with given := d.given ++ [(slot, value)] }

/-- Takes the value that is pending. -/
def settle (d : Draft) : Except UsageError Draft :=
  match d.pending with
  | none => .ok d
  | some (_, none) => .error .missingValue
  | some (slot, some value) => { d with pending := none }.accept slot value

/-- Takes a flag that stands alone. -/
def switch (d : Draft) (f : Flag) : Except UsageError Draft := do
  let d ← d.settle
  if f = .help then throw .helpAsked
  d.accept (.flag f) ""

/-- Takes a flag with its value, if that is there already. -/
def option (d : Draft) (f : Flag) (value : Option String) : Except UsageError Draft := do
  let d ← d.settle
  match value with
  | some value => d.accept (.flag f) value
  | none => return { d with pending := some (.flag f, none) }

/-- Takes an argument that starts with two dashes. -/
def long (verb : Option Verb) (d : Draft) (cs : List Char) : Except UsageError Draft :=
  let (name, rest) := cs.span (· != '=')
  let value := if rest.isEmpty then none else some (String.ofList (rest.drop 1))
  match Flag.ofName? verb name with
  | none => .error .unknownArgument
  | some f =>
    if f.takesValue then d.option f value
    else if value.isSome then .error .unneededValue
    else d.switch f

/-- Takes the letters behind a single dash, the last of which may have a value. -/
def letters (verb : Option Verb) (d : Draft) : List Char → Except UsageError Draft
  | [] => .ok d
  | c :: cs =>
    match Flag.ofLetter? verb c with
    | none => .error .unknownArgument
    | some f =>
      if f.takesValue then
        d.option f (match cs with
          | [] => none
          | '=' :: value => some (String.ofList value)
          | value => some (String.ofList value))
      else do letters verb (← d.switch f) cs

/-- Takes an argument that is no option: the document, if the verb wants one. -/
def plain (verb : Verb) (d : Draft) (arg : String) : Except UsageError Draft :=
  let wanted := verb != .config && !d.has .document && d.pending.all (·.1 != .document)
  if wanted then do return { ← d.settle with pending := some (.document, some arg) }
  else .error .unknownArgument

/-- Takes an argument, unless it is none that starts with a dash. -/
def dashed? (verb : Option Verb) (d : Draft) (arg : String) : Option (Except UsageError Draft) :=
  match arg.toList with
  | '-' :: '-' :: cs => some (d.long verb cs)
  | '-' :: c :: cs => some (d.letters verb (c :: cs))
  | _ => none

end Draft

/-- Reads the arguments behind a verb. `ended` tells whether two dashes were passed. -/
def readVerb (verb : Verb) : Bool → Draft → List String → Except UsageError Draft
  | _, d, [] => d.settle
  | true, d, arg :: args => do readVerb verb true (← d.plain verb arg) args
  | false, d, arg :: args =>
    if arg == "--" then readVerb verb true d args
    else match d.dashed? (some verb) arg with
      | some r => do readVerb verb false (← r) args
      | none =>
        match d.pending with
        | some (slot, none) =>
          readVerb verb false { d with pending := some (slot, some arg) } args
        | _ => do readVerb verb false (← d.plain verb arg) args

/-- The request of a verb with its arguments. -/
def request (verb : Verb) (d : Draft) : Except UsageError Request :=
  let value (f : Flag) : Option String := d.given.lookup (.flag f)
  match verb, d.given.lookup .document, value .handler with
  | .config, _, _ => .ok .settings
  | .check, some document, _ => .ok (.check document)
  | .run, some document, some handler =>
    .ok (.run document handler (((value .times).bind times?).getD 1) (value .sender)
      (d.has (.flag .json)))
  | _, _, _ => .error .missingArgument

/-- What asking for help on verbs comes to. -/
def help : List String → UsageError
  | [] => .helpAsked
  | [arg] => if isVerb arg then .helpAsked else .unknownVerb
  | _ => .unknownVerb

/-- Reads all arguments, given those before the verb. -/
def readFrom : Bool → Draft → List String → Except UsageError Invocation
  | _, d, [] => do
    let d ← d.settle
    throw (if d.given.isEmpty then .nothingAsked else .missingVerb)
  | true, _, arg :: _ => .error (if isVerb arg then .unknownArgument else .unknownVerb)
  | false, d, arg :: args =>
    match d.awaits, Verb.ofName? arg with
    | false, some verb => do
      let inner ← readVerb verb false {} args
      let request ← request verb inner
      let outer ← d.settle
      let file (d : Draft) : Option String := d.given.lookup (.flag .config)
      return ⟨(file inner).orElse fun _ => file outer, request⟩
    | awaits, _ =>
      if !awaits && arg == helpVerb then .error (help args)
      else if arg == "--" then readFrom true d args
      else match d.dashed? none arg, d.pending with
        | some r, _ => do readFrom false (← r) args
        | none, some (slot, none) => readFrom false { d with pending := some (slot, some arg) } args
        | none, _ => .error .unknownVerb

/-- The request that arguments make. -/
def Invocation.read (args : List String) : Except UsageError Invocation := readFrom false {} args

end HandlerScript.CommandLine
