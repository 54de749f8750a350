import HandlerScript.Settings.Format.Yaml.Scalar

/-! The tokens of YAML files.

    Blocks are opened and closed by the columns of their lines, and a key is known only by the colon
    behind it. So while a file is scanned, the columns of the open blocks are kept, and the place where
    a key may have begun; the tokens in front of a key are put there once its colon is found. -/

namespace HandlerScript.Settings.Yaml

inductive Token where
  | documentStart
  | documentEnd
  /-- The version of the format. -/
  | version
  /-- What the handle of tags stands for. -/
  | handle (name meaning : String)
  | blockList
  | blockTable
  | blockEnd
  | flowList
  | flowListEnd
  | flowTable
  | flowTableEnd
  /-- The dash in front of an item. -/
  | dash
  | comma
  | key
  | colon
  | anchor (name : String)
  | alias (name : String)
  | tag (handle name : String)
  | scalar (plain : Bool) (text : String)
  deriving DecidableEq, Repr

/-- A place where a key may begin: its cursor, the number of tokens in front of it, and whether there
    has to be a key. -/
structure KeyPlace where
  cursor : Cursor
  count : Nat
  required : Bool

/-- The state of a scan. -/
structure Scan where
  cursor : Cursor
  /-- The tokens so far, the last one first. -/
  tokens : List Token := []
  /-- The columns of the open blocks, the innermost first. -/
  blocks : List Nat := []
  /-- Whether contents have to be indented by more than the innermost block. -/
  margin : Bool := false
  keyAllowed : Bool := true
  keyPlace : Option KeyPlace := none
  /-- The open brackets, the innermost first: whether each is that of a list, and where a key may have
      begun outside of it. -/
  brackets : List (Bool × Option KeyPlace) := []
  /-- How many characters are in front of the place where a colon needs no blank behind it. -/
  tightColon : Nat := 0

namespace Scan

def inFlow (s : Scan) : Bool := !s.brackets.isEmpty

/-- The column up to which contents have to be indented. -/
def indent (s : Scan) : Int :=
  match s.blocks with
  | [] => -1
  | b :: _ => if s.margin then b + 1 else b

def push (t : Token) (s : Scan) : Scan := { s with tokens := t :: s.tokens }

/-- Puts tokens in front of those from a place on. -/
def insert (count : Nat) (ts : List Token) (s : Scan) : Scan :=
  let (later, earlier) := s.tokens.splitAt (s.tokens.length - count)
  { s with tokens := later ++ ts.reverse ++ earlier }

def goTo (c : Cursor) (s : Scan) : Scan := { s with cursor := c }

/-! ### Blocks -/

/-- Opens a block at a column, if that is further in than the innermost one. -/
def openBlock (column count : Nat) (t : Token) (s : Scan) : Scan :=
  if s.inFlow then s
  else
    let s := { s with margin := s.margin && decide ((column : Int) < s.indent) }
    if s.indent < (column : Int) then { s.insert count [t] with blocks := column :: s.blocks } else s

/-- Closes the blocks that are further in than a column. -/
def closeBlocks (column : Int) (s : Scan) : Scan :=
  if s.inFlow then s
  else
    let closed := s.blocks.takeWhile fun (b : Nat) => decide (column < b)
    { s with
      blocks := s.blocks.drop closed.length
      margin := s.margin && decide (s.indent ≤ column)
      tokens := closed.map (fun _ => .blockEnd) ++ s.tokens }

/-- From here on contents have to be indented by more than the innermost block. -/
def setMargin (s : Scan) : Scan :=
  if s.inFlow ∨ s.blocks.isEmpty then s else { s with margin := true }

/-! ### Keys -/

/-- Notes that a key may begin here. -/
def markKey (s : Scan) : Scan :=
  if s.keyAllowed then
    let required := !s.inFlow && !s.margin && s.blocks.head? == some s.cursor.column
    { s with keyPlace := some ⟨s.cursor, s.tokens.length, required⟩ }
  else s

/-- Gives up the place where a key may have begun. -/
def dropKey? (s : Scan) : Option Scan :=
  if (s.keyPlace.map (·.required)).getD false then none else some { s with keyPlace := none }

/-- Outside of brackets a key stands on one line with its colon, and is not too long. -/
def dropStaleKey? (s : Scan) : Option Scan :=
  match s.keyPlace with
  | none => some s
  | some k =>
    let stale := k.cursor.line < s.cursor.line || k.cursor.passed + 1024 < s.cursor.passed
    if !s.inFlow ∧ stale then s.dropKey? else some s

/-- Goes to the next token. -/
def toNext? (s : Scan) : Option Scan := do
  let c ← s.cursor.toNext? s.indent
  let fresh := !s.inFlow && s.cursor.line < c.line
  let s ← ({ s with cursor := c, keyAllowed := s.keyAllowed || fresh } : Scan).dropStaleKey?
  return s.closeBlocks c.column

/-! ### Marks -/

/-- An opening bracket. -/
def openBracket? (isList : Bool) (s : Scan) : Option Scan := do
  let s := s.markKey.setMargin
  if 255 ≤ s.brackets.length then none
  let c ← s.cursor.next.pastBlanks?
  return {
    s.push (if isList then .flowList else .flowTable) with
    cursor := c
    keyAllowed := true
    keyPlace := none
    brackets := (isList, s.keyPlace) :: s.brackets }

/-- A closing bracket. -/
def closeBracket? (isList : Bool) (s : Scan) : Option Scan := do
  let s ← s.dropKey?
  let c ← s.cursor.next.pastBlanks?
  match s.brackets with
  | [] => none
  | (_, outer) :: rest =>
    return {
      s.push (if isList then .flowListEnd else .flowTableEnd) with
      cursor := c
      keyAllowed := false
      keyPlace := outer
      brackets := rest
      tightColon := if rest.isEmpty then s.tightColon else c.passed }

def comma? (s : Scan) : Option Scan := do
  let s ← s.dropKey?
  let c ← s.cursor.next.pastBlanks?
  return { s.push .comma with cursor := c, keyAllowed := true }

/-- The dash in front of an item of a list. -/
def dash? (s : Scan) : Option Scan := do
  if s.inFlow ∨ !s.keyAllowed then none
  let column := s.cursor.column
  let behind := s.cursor.next
  let s := s.openBlock column s.tokens.length .blockList
  let c ← behind.pastBlanks?
  let tabbed := (behind.rest.takeWhile isBlank).contains '\t'
  let again : Bool := match c.rest with
    | '-' :: rest => beforeBlank rest
    | _ => false
  if tabbed ∧ again then none
  let s := s.goTo c
  let s := if c.rest.head? == some '\n' || beforeFlowChar c.rest then s.setMargin else s
  let s ← s.dropKey?
  return { s.push .dash with keyAllowed := true }

/-- Passes over what may stand behind the mark of a key: no tab in front of the key. -/
def pastKeyMark? : Nat → Cursor → Option Cursor
  | 0, c => some c
  | fuel + 1, c =>
    match c.rest with
    | ' ' :: _ | '\n' :: _ => pastKeyMark? fuel c.next
    | '#' :: _ => pastKeyMark? fuel c.lineEnd
    | '\t' :: _ => none
    | _ => some c

/-- The question mark in front of a key. -/
def key? (s : Scan) : Option Scan := do
  let s ←
    if s.inFlow then some s
    else if s.keyAllowed then
      some (s.openBlock s.cursor.column s.tokens.length .blockTable)
    else none
  let s ← s.dropKey?
  let behind := s.cursor.next
  let c ← pastKeyMark? (behind.rest.length + 1) behind
  if behind.rest.isEmpty then none
  return { s.push .key with cursor := c, keyAllowed := !s.inFlow }

/-- Passes over a tab behind a colon, which cannot alone separate it from some contents. -/
def pastColonTab? (c : Cursor) : Option Cursor :=
  if c.rest.head? = some '\t' then do
    let d ← c.pastBlanks?
    let spaced := (c.rest.takeWhile isBlank).contains ' '
    let bare := (d.rest.head?.map isWordChar).getD false
    if bare ∧ !spaced then none else some d
  else some c

/-- The colon behind a key. In a list in brackets it stands on the line of its key. -/
def colon? (s : Scan) : Option Scan := do
  let start := s.cursor
  let c ← pastColonTab? start.next
  let s := s.goTo c
  match s.keyPlace with
  | some k =>
    let inList := (s.brackets.head?.map (·.1)).getD false
    if inList ∧ k.cursor.line < start.line then none
    let s := s.insert k.count [.key]
    let s := (s.openBlock k.cursor.column k.count .blockTable).setMargin
    return { s.push .colon with keyPlace := none, keyAllowed := false }
  | none =>
    if !s.inFlow ∧ !s.keyAllowed then none
    let s := (s.openBlock start.column s.tokens.length .blockTable).setMargin
    return { s.push .colon with keyAllowed := !s.inFlow }

/-! ### Properties -/

/-- The name of a part, or a name that stands for a part. -/
def name? (token : String → Token) (s : Scan) : Option Scan := do
  let s := s.markKey
  let isNameChar (c : Char) : Bool := !(isBlank c || c == '\n' || isFlowChar c || c == '\ufeff')
  let name := s.cursor.next.rest.takeWhile isNameChar
  if name.isEmpty then none
  return {
    s.push (token (String.ofList name)) with
    cursor := s.cursor.next.skip name.length
    keyAllowed := false }

def isUriChar (c : Char) : Bool := c.isAlphanum || "-#;/?:@&=+$,_.!~*'()[]%".toList.contains c

def isTagChar (c : Char) : Bool := isUriChar c && !isFlowChar c && c != '!'

/-- A byte that is written in hexadecimal digits behind a percent sign. -/
def percentByte? : List Char → Option (Nat × List Char)
  | '%' :: a :: b :: rest => do
    return (16 * (← Hexadecimal.digit? a) + (← Hexadecimal.digit? b), rest)
  | _ => none

/-- A character that is written as bytes: one, or two that are taken for one number. -/
def percentChar? (cs : List Char) : Option (Char × List Char) := do
  let (a, rest) ← percentByte? cs
  if a < 128 then return (Char.ofNat a, rest)
  if a < 192 ∨ 224 ≤ a then none
  let (b, rest) ← percentByte? rest
  let n := 256 * a + b
  if 128 ≤ b ∧ b < 192 ∧ n.isValidChar then return (Char.ofNat n, rest) else none

/-- The characters of a tag, with those that are written as bytes. -/
def uri? (p : Char → Bool) : Nat → List Char → Option (List Char × List Char)
  | 0, _ => none
  | _, [] => some ([], [])
  | fuel + 1, c :: cs =>
    if !p c then some ([], c :: cs)
    else do
      let (x, rest) ← if c = '%' then percentChar? (c :: cs) else some (c, cs)
      let (text, rest) ← uri? p fuel rest
      return (x :: text, rest)

/-- The handle of a tag: words between exclamation marks. -/
def tagHandle (cs : List Char) : List Char × List Char :=
  let (word, rest) := (cs.drop 1).span isWordChar
  match rest with
  | '!' :: rest => ('!' :: word ++ ['!'], rest)
  | _ => ('!' :: word, rest)

/-- A tag: its handle, its name and what follows. A name in angle brackets has no handle, and an
    exclamation mark alone is a name. -/
def tagParts? (cs : List Char) : Option (List Char × List Char × List Char) := do
  match cs with
  | '!' :: '<' :: rest =>
    match ← uri? isUriChar (rest.length + 1) rest with
    | (name, '>' :: rest) => return ([], name, rest)
    | _ => none
  | _ =>
    let (handle, rest) := tagHandle cs
    let (name, rest) ← uri? isTagChar (rest.length + 1) rest
    if 2 ≤ handle.length ∧ handle.getLast? = some '!' then
      if name.isEmpty then none else return (handle, name, rest)
    else
      let name := handle.drop 1 ++ name
      return if name.isEmpty then ([], ['!'], rest) else (['!'], name, rest)

def tag? (s : Scan) : Option Scan := do
  let s := s.markKey
  let (handle, name, rest) ← tagParts? s.cursor.rest
  if beforeBlank rest ∨ (s.inFlow ∧ beforeFlowChar rest) then
    return {
      s.push (.tag (String.ofList handle) (String.ofList name)) with
      cursor := s.cursor.leaving rest
      keyAllowed := false }
  else none

/-! ### Directives -/

/-- The digits of a part of a version number. -/
def versionPart? (cs : List Char) : Option (List Char) :=
  let (digits, rest) := cs.span Decimal.isDigit
  if digits.isEmpty ∨ 9 < digits.length then none else some rest

/-- What a directive says, and what follows it on its line. -/
def directiveToken? (cs : List Char) : Option (Token × List Char) := do
  let (name, rest) := cs.span isWordChar
  if name.isEmpty ∨ !beforeBlank rest then none
  let args := rest.dropWhile isBlank
  match String.ofList name with
  | "YAML" =>
    match ← versionPart? args with
    | '.' :: rest => return (.version, ← versionPart? rest)
    | _ => none
  | "TAG" =>
    if args.head? ≠ some '!' then none
    let (handle, rest) := tagHandle args
    if handle ≠ ['!'] ∧ handle.getLast? ≠ some '!' then none
    let rest := rest.dropWhile isBlank
    let (first, rest) ← match rest with
      | '!' :: rest => some (['!'], rest)
      | c :: _ => if isTagChar c then some ([], rest) else none
      | [] => none
    let (more, rest) ← uri? isUriChar (rest.length + 1) rest
    if !beforeBlank rest then none
    return (.handle (String.ofList handle) (String.ofList (first ++ more)), rest)
  | _ => return (.handle "" "", rest.dropWhile (· != '\n'))

def directive? (s : Scan) : Option Scan := do
  let s ← (s.closeBlocks (-1)).dropKey?
  let (token, rest) ← directiveToken? (s.cursor.rest.drop 1)
  let c ← (s.cursor.leaving rest).pastBlanks?
  if c.atLineEnd then return { s.push token with cursor := c.next, keyAllowed := false } else none

/-- A mark between documents. -/
def marker? (token : Token) (s : Scan) : Option Scan := do
  let s ← (s.closeBlocks (-1)).dropKey?
  return { s.push token with cursor := s.cursor.skip 3, keyAllowed := false }

/-! ### Scalars -/

def quoted? (q : Quote) (s : Scan) : Option Scan := do
  let s := s.markKey
  let (text, textEnd) ← quotedScalar? q s.inFlow s.indent s.cursor
  let c ← textEnd.toNext? s.indent
  return {
    s.push (.scalar false (String.ofList text)) with
    cursor := c
    keyAllowed := !s.inFlow && textEnd.line < c.line
    tightColon := c.passed }

def block? (fold : Bool) (s : Scan) : Option Scan := do
  let s := { s.markKey with margin := false }
  let (text, c) ← blockScalar? fold s.indent s.cursor
  return { s.push (.scalar false (String.ofList text)) with cursor := c, keyAllowed := true }

def plain? (s : Scan) : Option Scan := do
  let s := { s.markKey with margin := false }
  let (text, c) ← plainScalar? s.inFlow s.indent s.cursor
  return { s.push (.scalar true (String.ofList text)) with cursor := c, keyAllowed := c.leading }

/-! ### Files -/

/-- The next token, which begins with a character. -/
def token? (s : Scan) (x : Char) (rest : List Char) : Option Scan :=
  let blank := beforeBlank rest
  if s.cursor.isBefore s.indent then none
  else match x with
    | '[' => s.openBracket? true
    | '{' => s.openBracket? false
    | ']' => s.closeBracket? true
    | '}' => s.closeBracket? false
    | ',' => s.comma?
    | '*' => s.name? .alias
    | '&' => s.name? .anchor
    | '!' => s.tag?
    | '\'' => s.quoted? .single
    | '"' => s.quoted? .double
    | '%' | '@' | '`' => none
    | '-' => if blank then s.dash? else s.plain?
    | '?' => if blank then s.key? else s.plain?
    | ':' =>
      let tight := s.inFlow && (beforeFlowChar rest || s.cursor.passed == s.tightColon)
      if blank || tight then s.colon? else s.plain?
    | '|' => if s.inFlow then s.plain? else s.block? false
    | '>' => if s.inFlow then s.plain? else s.block? true
    | _ => s.plain?

/-- The mark or directive at the start of a line, if there is one. -/
def lineToken? (s : Scan) : Option (Option Scan) :=
  if s.cursor.column ≠ 0 then none
  else if s.cursor.rest.head? = some '%' then some s.directive?
  else if beforeStart s.cursor.rest then some (s.marker? .documentStart)
  else if beforeEnd s.cursor.rest then
    some do
      let s ← s.marker? .documentEnd
      let c ← s.cursor.pastBlanks?
      if c.atLineEnd then some (s.goTo c) else none
  else none

/-- The tokens of a file from a state on. -/
def tokens? : Nat → Scan → Option (List Token)
  | 0, _ => none
  | fuel + 1, s => do
    let s ← s.toNext?
    match s.cursor.rest with
    | [] =>
      if s.inFlow then none
      let s ← (s.closeBlocks (-1)).dropKey?
      return s.tokens.reverse
    | x :: rest => tokens? fuel (← (s.lineToken?).getD (s.token? x rest))

end Scan

/-- The characters of a file with all line breaks as line feeds. A null character ends it. -/
def withLineFeeds : List Char → List Char
  | '\r' :: '\n' :: cs => '\n' :: withLineFeeds cs
  | c :: cs =>
    if c = '\x00' then [] else (if c = '\r' then '\n' else c) :: withLineFeeds cs
  | [] => []

/-- The tokens of a file. -/
def tokens? (source : List Char) : Option (List Token) :=
  let chars := withLineFeeds source
  Scan.tokens? (chars.length + 1) { cursor := { rest := chars } }

end HandlerScript.Settings.Yaml
