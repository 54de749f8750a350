import HandlerScript.Text.Blank

/-! Cutting texts at a separator and replacing a phrase.

    All functions work on characters, from left to right, and never look at what they have already
    produced: a phrase inserted by a replacement is not searched again. -/

namespace HandlerScript.Text

/-- What follows `phrase` at the front of a text. -/
def after? : List Char → List Char → Option (List Char)
  | [], cs => some cs
  | _ :: _, [] => none
  | p :: ps, c :: cs => if p = c then after? ps cs else none

/-- The two sides of the first occurrence of `phrase`. -/
def cut? (phrase : List Char) : List Char → Option (List Char × List Char)
  | [] => (after? phrase []).map fun rest => ([], rest)
  | c :: cs =>
    match after? phrase (c :: cs) with
    | some rest => some ([], rest)
    | none => (cut? phrase cs).map fun (left, right) => (c :: left, right)

/-- Puts a character in front of the first piece. -/
def onFirst (c : Char) : List (List Char) → List (List Char)
  | [] => [[c]]
  | piece :: pieces => (c :: piece) :: pieces

/-- The pieces between the occurrences of one separating character. -/
def piecesAt (sep : Char) : List Char → List (List Char)
  | [] => [[]]
  | c :: cs => if c = sep then [] :: piecesAt sep cs else onFirst c (piecesAt sep cs)

/-- The pieces between the occurrences of a separator that is one character written twice. -/
def piecesAtDouble (sep : Char) : List Char → List (List Char)
  | a :: b :: cs =>
    if a = sep ∧ b = sep then [] :: piecesAtDouble sep cs else onFirst a (piecesAtDouble sep (b :: cs))
  | cs => [cs]

/-- Replaces every occurrence of a phrase. `skip` counts the characters of an occurrence that are
    still to be passed over. -/
def replaceFrom (phrase new : List Char) : Nat → List Char → List Char
  | _, [] => []
  | skip + 1, _ :: cs => replaceFrom phrase new skip cs
  | 0, c :: cs =>
    if (after? phrase (c :: cs)).isSome then new ++ replaceFrom phrase new (phrase.length - 1) cs
    else c :: replaceFrom phrase new 0 cs

/-- The text with every occurrence of a phrase replaced, left to right and without overlap. The
    empty phrase occurs nowhere. -/
def replace (phrase new : List Char) (cs : List Char) : List Char :=
  if phrase.isEmpty then cs else replaceFrom phrase new 0 cs

/-- The trimmed items of a comma-separated list; blank items do not count. -/
def items (s : String) : List String :=
  (piecesAt ',' s.toList).filterMap fun piece => nonBlank? (String.ofList piece)

end HandlerScript.Text
