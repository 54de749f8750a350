import HandlerScript.Text.Alphanumeric
import HandlerScript.Text.Blank

/-! A line of an environment file: a name, an equals sign and a value.

    A value ends at the first blank outside quotes; only a comment may follow. Single quotes keep
    everything as it is. Elsewhere a backslash takes the next character as it is, and a dollar sign
    refers to another variable, whose name may stand in braces. -/

namespace HandlerScript.Environment

/-- What a value is being read in. -/
inductive Mode where
  | plain
  | single
  | double
  /-- Behind a backslash. -/
  | escaped (inDouble : Bool)
  /-- Behind a value. -/
  | ending
  /-- Behind a dollar sign and part of a name, last character first. -/
  | reference (inDouble : Bool) (name : List Char)
  /-- Behind an opening brace and part of a name, last character first. -/
  | braced (inDouble : Bool) (name : List Char)

/-- The mode outside of escapes and references. -/
def Mode.outside (inDouble : Bool) : Mode := if inDouble then .double else .plain

/-- The character that one behind a backslash stands for. -/
def unescaped? (c : Char) : Option Char :=
  if c == '\\' || c == '\'' || c == '"' || c == '$' || c == ' ' then some c
  else if c == 'n' then some '\n'
  else none

/-- The characters of a value. `known` gives the value of a variable. -/
def valueFrom (known : String → String) : Mode → List Char → Option (List Char)
  | .plain, [] | .ending, [] | .escaped false, [] => some []
  | .reference false name, [] => some (known (String.ofList name.reverse)).toList
  | .single, [] | .double, [] | .escaped true, [] | .reference true _, [] | .braced _ _, [] => none
  | .ending, c :: cs =>
    if c == ' ' || c == '\t' then valueFrom known .ending cs
    else if c == '#' then some []
    else none
  | .escaped inDouble, c :: cs => do
    return (← unescaped? c) :: (← valueFrom known (.outside inDouble) cs)
  | .single, c :: cs =>
    if c == '\'' then valueFrom known .plain cs else (valueFrom known .single cs).map (c :: ·)
  | .reference inDouble name, c :: cs =>
    if Text.isAlphanumeric c then valueFrom known (.reference inDouble (c :: name)) cs
    else if c == '\x7b' && name.isEmpty then valueFrom known (.braced inDouble []) cs
    else
      let found := (known (String.ofList name.reverse)).toList
      if c == '$' then (valueFrom known (.reference inDouble []) cs).map (found ++ ·)
      else (valueFrom known (.outside inDouble) cs).map (found ++ c :: ·)
  | .braced inDouble name, c :: cs =>
    if c == '\x7d' then
      (valueFrom known (.outside inDouble) cs).map ((known (String.ofList name.reverse)).toList ++ ·)
    else valueFrom known (.braced inDouble (c :: name)) cs
  | .double, c :: cs =>
    if c == '$' then valueFrom known (.reference true []) cs
    else if c == '"' then valueFrom known .plain cs
    else if c == '\\' then valueFrom known (.escaped true) cs
    else (valueFrom known .double cs).map (c :: ·)
  | .plain, c :: cs =>
    if c == '$' then valueFrom known (.reference false []) cs
    else if c == '\'' then valueFrom known .single cs
    else if c == '"' then valueFrom known .double cs
    else if c == '\\' then valueFrom known (.escaped false) cs
    else if c == ' ' || c == '\t' then valueFrom known .ending cs
    else (valueFrom known .plain cs).map (c :: ·)

/-- Whether nothing but a comment is left. -/
def isOver : List Char → Bool
  | [] => true
  | c :: _ => c == '#'

/-- A name at the front of a text, and the rest without the blanks in front. -/
def name? : List Char → Option (List Char × List Char)
  | [] => none
  | c :: cs =>
    if c.isAlpha || c == '_' then
      let (name, rest) := (c :: cs).span fun c => c.isAlphanum || c == '_' || c == '.'
      some (name, rest.dropWhile Text.isBlank)
    else none

/-- What stands behind an equals sign. -/
def assigned? : List Char → Option (List Char)
  | '=' :: rest => some rest
  | _ => none

/-- The name of a line and what is assigned to it. The word `export` may stand in front. -/
def assignment? (cs : List Char) : Option (List Char × List Char) := do
  let (name, rest) ← name? cs
  match assigned? rest with
  | some value => return (name, value)
  | none =>
    if name != "export".toList then none
    let (name, rest) ← name? rest
    return (name, ← assigned? rest)

/-- What a line says. -/
inductive Line where
  | nothing
  | sets (name value : String)
  deriving DecidableEq, Repr

/-- Reads a line. -/
def Line.read (known : String → String) (cs : List Char) : Option Line :=
  let line := Text.trimmed cs
  if isOver line then some .nothing
  else do
    let (name, rest) ← assignment? line
    let rest := rest.dropWhile Text.isBlank
    let value ← if isOver rest then some [] else valueFrom known .plain rest
    return .sets (String.ofList name) (String.ofList value)

end HandlerScript.Environment
