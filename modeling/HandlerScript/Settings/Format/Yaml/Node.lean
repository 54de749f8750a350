import HandlerScript.Settings.Format.Yaml.Token

/-! Settings in YAML files.

    Lists and tables are written by indentation, or in brackets as in JSON. Parts of a file can be
    given names, and used again by them. A file holds nothing, or one document with a table. -/

namespace HandlerScript.Settings.Yaml

/-- What a part of a document stands for; nothing, if it is not of the type that its tag says. -/
abbrev Part := Option Value

/-! ### Tables -/

/-- The keys that a table of settings can have. A number and its text are two keys. -/
inductive Key where
  | text (s : String)
  | number (n : Int)
  deriving DecidableEq, Repr

def Key.ofValue? : Value → Option Key
  | .string s => some (.text s)
  | .int n => some (.number n)
  | _ => none

def Key.name : Key → String
  | .text s => s
  | .number n => Decimal.intText n

/-- The keys and values in the parts of a table, which stand there in turn. A part that stands for
    nothing is no key. -/
def pairs : List Part → List (Value × Value)
  | [] | [_] => []
  | none :: parts => pairs parts
  | some key :: value :: parts => (key, value.getD .null) :: pairs parts

/-- The table of keys and values, of which no key comes twice. -/
def ofPairs? (seen : List Key) (tree : Tree) : List (Value × Value) → Option Tree
  | [] => some tree
  | (key, value) :: rest => do
    let key ← Key.ofValue? key
    if seen.contains key then none else ofPairs? (key :: seen) (put key.name value tree) rest

/-- The table with these parts. -/
def tableOf? (parts : List Part) : Option Value := (ofPairs? [] [] (pairs parts)).map .table

/-- The list with these parts. -/
def listOf (parts : List Part) : Value := .array (parts.map (·.getD .null))

/-! ### Documents -/

/-- What is left of a document: its tokens, the parts that have names, with a number for each name that
    was given, and what a handle of tags stands for. -/
structure Rest where
  tokens : List Token
  names : List (String × Nat) := []
  parts : List (Nat × Part) := []
  handle : Option (String × String) := none

namespace Rest

def drop (r : Rest) : Rest := { r with tokens := r.tokens.drop 1 }

/-- Whether one of these tokens comes next. -/
def sees (r : Rest) (ts : List Token) : Bool := (r.tokens.head?.map ts.contains).getD false

/-- Gives a name to the part that follows; the number tells which. -/
def give (name : String) (r : Rest) : Nat × Rest :=
  (r.names.length, { r with names := (name, r.names.length) :: r.names })

/-- Keeps the part that has got a name. -/
def keep (anchor : Option Nat) (p : Part) (r : Rest) : Part × Rest :=
  match anchor with
  | some n => (p, { r with parts := (n, p) :: r.parts })
  | none => (p, r)

/-- The part that a name stands for. Inside of that part it stands for nothing. -/
def aliased? (name : String) (r : Rest) : Option Part :=
  (r.names.lookup name).map fun n => (r.parts.lookup n).getD none

end Rest

/-- What the handles of tags stand for where nothing else is said. -/
def coreTags : String := "tag:yaml.org,2002:"

/-- The type that a tag names: its handle says whose type it is. -/
def typeOfTag? (declared : Option (String × String)) (handle name : String) :
    Option (String × String) :=
  match declared.filter (·.1 = handle) with
  | some (_, meaning) => some (meaning, name)
  | none =>
    if handle = "!!" then some (coreTags, name)
    else if 2 ≤ handle.length then none
    else some (handle, name)

/-- What a scalar stands for. -/
def scalarPart? (type : Option (String × String)) (plain : Bool) (text : String) : Option Part :=
  match type with
  | some (family, name) =>
    if plain ∧ family = coreTags then resolveAs? name text else some (some (.string text))
  | none => if plain then (resolve? text).map some else some (some (.string text))

/-- The name and the type in front of a part, in either order. -/
structure Properties where
  anchor : Option Nat := none
  type : Option (String × String) := none

/-- The tag that comes next, if there is one. -/
def takeTag? (p : Properties) (r : Rest) : Option (Properties × Rest) :=
  match r.tokens with
  | .tag handle name :: _ =>
    (typeOfTag? r.handle handle name).map fun type => ({ p with type := some type }, r.drop)
  | _ => some (p, r)

/-- The name that comes next, if there is one. -/
def takeAnchor (p : Properties) (r : Rest) : Properties × Rest :=
  match r.tokens with
  | .anchor name :: _ =>
    let (n, r) := r.drop.give name
    ({ p with anchor := some n }, r)
  | _ => (p, r)

def properties? (r : Rest) : Option (Properties × Rest) :=
  match r.tokens with
  | .anchor _ :: _ =>
    let (p, r) := takeAnchor {} r
    takeTag? p r
  | _ => (takeTag? {} r).map fun (p, r) => takeAnchor p r

/-- Where a part may stand: in brackets, in a block, or behind a key in a block. -/
inductive Context where
  | flow
  | block
  | underKey
  deriving DecidableEq, Repr

mutual

/-- A part of a document. -/
def part? (fuel : Nat) (context : Context) (r : Rest) : Option (Part × Rest) :=
  match fuel with
  | 0 => none
  | fuel + 1 => do
    if let .alias name :: _ := r.tokens then return (← r.aliased? name, r.drop)
    let (p, r) ← properties? r
    match r.tokens with
    | .scalar plain text :: _ =>
      return r.drop.keep p.anchor (← scalarPart? p.type plain text)
    | .flowList :: _ =>
      let (parts, r) ← flowItems? fuel true r.drop
      return r.keep p.anchor (some (listOf parts))
    | .flowTable :: _ =>
      let (parts, r) ← flowEntries? fuel true r.drop
      return r.keep p.anchor (some (← tableOf? parts))
    | t :: _ =>
      if t = .dash ∧ context = .underKey then
        let (parts, r) ← blockItems? fuel r
        return r.keep p.anchor (some (listOf parts))
      else if t = .blockList ∧ context ≠ .flow then
        let (parts, r) ← blockItems? fuel r.drop
        if r.sees [.blockEnd] then return r.drop.keep p.anchor (some (listOf parts)) else none
      else if t = .blockTable ∧ context ≠ .flow then
        let (parts, r) ← blockEntries? fuel r.drop
        return r.keep p.anchor (some (← tableOf? parts))
      else bare? p r
    | [] => bare? p r

/-- A part of which there is nothing but its properties. -/
def bare? (p : Properties) (r : Rest) : Option (Part × Rest) := do
  if p.anchor.isNone ∧ p.type.isNone then none
  return r.keep p.anchor (← scalarPart? p.type true "")

/-- A part, or nothing if one of these tokens comes next. -/
def partUnless? (fuel : Nat) (ts : List Token) (context : Context) (r : Rest) :
    Option (Part × Rest) :=
  match fuel with
  | 0 => none
  | fuel + 1 => if r.sees ts then some (some .null, r) else part? fuel context r

/-- The value behind a key, if there is a colon. -/
def value? (fuel : Nat) (ts : List Token) (context : Context) (r : Rest) : Option (Part × Rest) :=
  match fuel with
  | 0 => none
  | fuel + 1 =>
    if r.sees [.colon] then partUnless? fuel ts context r.drop else some (some .null, r)

/-- The items of a list, each behind its dash. -/
def blockItems? (fuel : Nat) (r : Rest) : Option (List Part × Rest) :=
  match fuel with
  | 0 => none
  | fuel + 1 =>
    if r.sees [.dash] then do
      let (p, r) ← partUnless? fuel [.dash, .key, .colon, .blockEnd] .block r.drop
      let (ps, r) ← blockItems? fuel r
      return (p :: ps, r)
    else some ([], r)

/-- The entries of a table, up to its end. -/
def blockEntries? (fuel : Nat) (r : Rest) : Option (List Part × Rest) :=
  match fuel with
  | 0 => none
  | fuel + 1 =>
    let stops := [.key, .colon, .blockEnd]
    if r.sees [.blockEnd] then some ([], r.drop)
    else if r.sees [.key, .colon] then do
      let r := if r.sees [.key] then r.drop else r
      let (key, r) ← partUnless? fuel stops .underKey r
      let (value, r) ← value? fuel stops .underKey r
      let (ps, r) ← blockEntries? fuel r
      return (key :: value :: ps, r)
    else none

/-- The items of a list in brackets, up to its end. An item may be a key with its value, which makes a
    table of its own. -/
def flowItems? (fuel : Nat) (first : Bool) (r : Rest) : Option (List Part × Rest) :=
  match fuel with
  | 0 => none
  | fuel + 1 =>
    if r.sees [.flowListEnd] then some ([], r.drop)
    else if !first ∧ !r.sees [.comma] then none
    else
      let r := if first then r else r.drop
      let stops := [.comma, .flowListEnd]
      if r.sees [.flowListEnd] then some ([], r.drop)
      else do
        let (p, r) ←
          if r.sees [.key] then do
            let (key, r) ← part? fuel .flow r.drop
            let (value, r) ← value? fuel stops .flow r
            pure (some (← tableOf? [key, value]), r)
          else part? fuel .flow r
        let (ps, r) ← flowItems? fuel false r
        return (p :: ps, r)

/-- The entries of a table in brackets, up to its end. A key may have no value. -/
def flowEntries? (fuel : Nat) (first : Bool) (r : Rest) : Option (List Part × Rest) :=
  match fuel with
  | 0 => none
  | fuel + 1 =>
    if r.sees [.flowTableEnd] then some ([], r.drop)
    else if !first ∧ !r.sees [.comma] then none
    else
      let r := if first then r else r.drop
      let stops := [.comma, .flowTableEnd]
      if r.sees [.flowTableEnd] then some ([], r.drop)
      else do
        let (key, value, r) ←
          if r.sees [.key, .colon] then do
            let r := if r.sees [.key] then r.drop else r
            let (key, r) ← partUnless? fuel (.colon :: stops) .flow r
            let (value, r) ← value? fuel stops .flow r
            pure (key, value, r)
          else do
            let (key, r) ← part? fuel .flow r
            pure (key, some .null, r)
        let (ps, r) ← flowEntries? fuel false r
        return (key :: value :: ps, r)

end

/-! ### Files -/

/-- Passes over the directives in front of a document. The last one counts, and the version is said
    once. -/
def directives? (versioned : Bool) (handle : Option (String × String)) :
    List Token → Option (Option (String × String) × List Token)
  | .version :: ts => if versioned then none else directives? true none ts
  | .handle name meaning :: ts => directives? versioned (some (name, meaning)) ts
  | ts => some (handle, ts)

/-- A document: its root, and the tokens behind it. -/
def document? (ts : List Token) : Option (Part × List Token) := do
  let (handle, rest) ← directives? false none ts
  let fuel := 4 * ts.length + 4
  match rest with
  | .documentStart :: rest =>
    let r : Rest := { tokens := rest, handle := handle }
    if rest.isEmpty ∨ r.sees [.documentStart, .documentEnd] then return (some .null, rest)
    let (p, r) ← part? fuel .block r
    return (p, r.tokens)
  | _ =>
    if rest.length < ts.length then none
    let (p, r) ← part? fuel .block { tokens := rest }
    return (p, r.tokens)

/-- The settings in a file. -/
def read (source : List Char) : Option Tree := do
  match (← tokens? source).dropWhile (· = .documentEnd) with
  | [] => return []
  | ts =>
    match ← document? ts with
    | (some (.table tree), rest) => if rest.all (· = .documentEnd) then some tree else none
    | _ => none

end HandlerScript.Settings.Yaml
