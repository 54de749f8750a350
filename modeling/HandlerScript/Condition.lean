import HandlerScript.Template
import HandlerScript.Text.Pieces

/-! Conditions.

    A condition is a conjunction of disjunctions of comparisons, on the characters of its text.
    Operators are written as symbols, as words, or as symbols with markup references in them; all
    spellings are first made symbols. Equality compares texts, order compares numbers, and a text
    without an operator is a truth value, with an absent reference counting as false. -/

namespace HandlerScript.Condition

/-! ### Spelling -/

/-- The symbol that a word spells. -/
def symbol? (word : List Char) : Option (List Char) :=
  match Text.lower (String.ofList word) with
  | "and" => some ['&', '&']
  | "or" => some ['|', '|']
  | "equals" | "eq" => some ['=', '=']
  | "not" | "ne" => some ['!', '=']
  | "gte" => some ['>', '=']
  | "lte" => some ['<', '=']
  | "gt" => some ['>']
  | "lt" => some ['<']
  | _ => none

/-- A finished word: its symbol if it has one and holds no quote, else the word. -/
def respell (quotedWord : Bool) (word : List Char) : List Char :=
  if quotedWord then word else (symbol? word).getD word

/-- Where the reading of words is: the word so far, last character first, whether it holds a quote,
    and the quote that is open. -/
structure Words where
  word : List Char := []
  hasQuote : Bool := false
  quote : Option Char := none

/-- The state behind a character that belongs to the word. -/
def Words.push (w : Words) (c : Char) : Words :=
  match w.quote with
  | some q => { w with word := c :: w.word, quote := if c = q then none else some q }
  | none =>
    if c = '"' ∨ c = '\'' then ⟨c :: w.word, true, some c⟩ else { w with word := c :: w.word }

/-- Replaces operator words. Words end at blanks outside quotes. -/
def respellFrom : Words → List Char → List Char
  | w, [] => respell w.hasQuote w.word.reverse
  | w, c :: cs =>
    if Text.isBlank c && w.quote.isNone then respell w.hasQuote w.word.reverse ++ c :: respellFrom {} cs
    else respellFrom (w.push c) cs

/-- Replaces the markup references of operator characters, one name after the other. -/
def unescape (cs : List Char) : List Char :=
  let cs := Text.replace "&amp;".toList ['&'] cs
  let cs := Text.replace "&lt;".toList ['<'] cs
  let cs := Text.replace "&gt;".toList ['>'] cs
  Text.replace "&quot;".toList ['"'] cs

/-- The condition with all operators written as symbols. -/
def normalize (cs : List Char) : List Char :=
  respellFrom {} (unescape cs)

/-! ### Meaning -/

/-- A trimmed operand without the quotes around it. -/
def unquote (cs : List Char) : List Char :=
  let t := Text.trimmed cs
  match t with
  | q :: rest =>
    if (q = '"' ∨ q = '\'') ∧ rest.getLast? = some q then rest.dropLast else t
  | [] => t

def numberOf (cs : List Char) : Float :=
  Scalar.numberOf (String.ofList (unquote cs))

/-- The meaning of a single comparison. -/
def compare (cs : List Char) : Bool :=
  match Text.cut? ['=', '='] cs with
  | some (l, r) => unquote l == unquote r
  | none =>
  match Text.cut? ['!', '='] cs with
  | some (l, r) => unquote l != unquote r
  | none =>
  match Text.cut? ['>', '='] cs with
  | some (l, r) => decide (numberOf l ≥ numberOf r)
  | none =>
  match Text.cut? ['<', '='] cs with
  | some (l, r) => decide (numberOf l ≤ numberOf r)
  | none =>
  match Text.cut? ['>'] cs with
  | some (l, r) => decide (numberOf l > numberOf r)
  | none =>
  match Text.cut? ['<'] cs with
  | some (l, r) => decide (numberOf l < numberOf r)
  | none => !Template.isBareToken cs && Scalar.textTruth (String.ofList (unquote cs))

/-- The meaning of a comparison with negations before it; `fuel` bounds their number. -/
def literal : Nat → List Char → Bool
  | 0, cs => compare (Text.trimmed cs)
  | fuel + 1, cs =>
    match Text.trimmed cs with
    | '!' :: rest => if rest.head? = some '=' then compare ('!' :: rest) else !literal fuel rest
    | t => compare t

/-- The meaning of a condition whose operators are symbols. -/
def meaning (cs : List Char) : Bool :=
  (Text.piecesAtDouble '&' cs).all fun clause =>
    (Text.piecesAtDouble '|' clause).any fun l => literal l.length l

/-- Whether a text without references holds. -/
def holdsText (text : String) : Bool :=
  meaning (normalize text.toList)

/-- Whether a condition holds in a scope. -/
def holds (s : Scope) (text : String) : Bool :=
  holdsText (s.resolve text)

end HandlerScript.Condition
