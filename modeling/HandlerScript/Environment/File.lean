import HandlerScript.Environment.Line
import HandlerScript.Table

/-! Environment files.

    A line goes on with the next one as long as a quote is open. The variables of a file are added in
    order to those that are there, none of which is changed; a line that cannot be read ends the
    file. -/

namespace HandlerScript.Environment

/-- Where in a line a character stands. -/
inductive Place where
  | text
  | blank
  | escape
  | double
  | doubleEscape
  | single
  | singleEscape
  deriving DecidableEq, Repr

/-- The place behind a character that opens something. -/
def Place.opened? (c : Char) : Option Place :=
  if c == '\\' then some .escape
  else if c == '"' then some .double
  else if c == '\'' then some .single
  else none

/-- The place behind a character. -/
def Place.next (c : Char) : Place → Place
  | .text =>
    if Text.isBlank c && c != '\n' && c != '\r' then .blank else (Place.opened? c).getD .text
  | .blank => (Place.opened? c).getD .text
  | .escape => .text
  | .double => if c == '\\' then .doubleEscape else if c == '"' then .text else .double
  | .doubleEscape => .double
  | .single => if c == '\\' then .singleEscape else if c == '\'' then .text else .single
  | .singleEscape => .single

/-- The place behind a line, or what stands before a comment that ends it. -/
def scan : Place → List Char → List Char → Place ⊕ List Char
  | place, _, [] => .inl place
  | place, seen, c :: cs =>
    if place = .blank ∧ c = '#' then .inr seen.reverse else scan (place.next c) (c :: seen) cs

/-- The lines of a text, each with its line break. -/
def physicalLines : List Char → List (List Char)
  | [] => []
  | c :: cs =>
    if c = '\n' then [c] :: physicalLines cs
    else match physicalLines cs with
      | [] => [[c]]
      | line :: lines => (c :: line) :: lines

/-- A line without its line break. -/
def withoutBreak (line : List Char) : List Char :=
  match line.reverse with
  | '\n' :: '\r' :: rest | '\n' :: rest => rest.reverse
  | _ => line

/-- The lines of a file, joined where a quote is open; `none` where the last one never ends. `before`
    is what has been read of a line. -/
def logicalLines : Place → List Char → List (List Char) → List (Option (List Char))
  | place, _, [] => if place = .text then [] else [none]
  | place, before, line :: lines =>
    let all := before ++ line
    if (all.dropWhile Text.isBlank).head? == some '#' then some [] :: logicalLines .text [] lines
    else match scan place [] line with
      | .inr seen => some (before ++ seen) :: logicalLines .text [] lines
      | .inl .text => some (withoutBreak all) :: logicalLines .text [] lines
      | .inl place => logicalLines place all lines

/-- Adds variables that are not there yet. `earlier` holds what earlier lines of the file say. -/
def addLines (vars earlier : Table String) : List (Option (List Char)) → Table String
  | [] | none :: _ => vars
  | some line :: lines =>
    let known (name : String) : String :=
      ((vars.get? name).orElse fun _ => earlier.get? name).getD ""
    match Line.read known line with
    | none => vars
    | some .nothing => addLines vars earlier lines
    | some (.sets name value) =>
      addLines (if vars.contains name then vars else vars.insert name value)
        (earlier.insert name value) lines

/-- The variables with those of a file added; a byte order mark in front does not count. -/
def withFile (vars : Table String) (text : String) : Table String :=
  let cs := match text.toList with
    | '\ufeff' :: rest => rest
    | cs => cs
  addLines vars ∅ (logicalLines .text [] (physicalLines cs))

end HandlerScript.Environment
