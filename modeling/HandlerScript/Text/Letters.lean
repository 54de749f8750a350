/-! Texts that differ only in the case of ASCII letters.

    Tags, attribute names, type names and function keys are compared this way. Letters outside
    ASCII are left alone: `É` and `é` stay different names. -/

namespace HandlerScript.Text

/-- The text with its ASCII capitals made small. -/
def lower (s : String) : String :=
  String.ofList (s.toList.map Char.toLower)

/-- Equality up to the case of ASCII letters. -/
def sameLetters (a b : String) : Bool :=
  lower a == lower b

theorem sameLetters_iff {a b : String} : sameLetters a b = true ↔ lower a = lower b := by
  simp [sameLetters]

end HandlerScript.Text
