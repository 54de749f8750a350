/-! Texts measured in bytes of their UTF-8 form. -/

namespace HandlerScript.Text

/-- The number of bytes of a text. -/
def byteCount (cs : List Char) : Nat :=
  cs.foldl (fun n c => n + c.utf8Size) 0

end HandlerScript.Text
