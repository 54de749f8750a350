import HandlerScript.Number.Hexadecimal
import HandlerScript.Text.Extending
import HandlerScript.Text.Invisible

/-! Texts in quotes for messages.

    A quoted text shows every character: quotes and backslashes are escaped, line ends and tabs have
    their letters, and a character that would not show by itself is given by its code point. -/

namespace HandlerScript.Text

/-- Whether a character needs no escape to be seen. -/
def showsItself (c : Char) : Bool :=
  c == ' ' || !(isExtending c || isInvisible c)

/-- A character as it stands between quotes. -/
def quotedChar (c : Char) : List Char :=
  if c = '"' ∨ c = '\\' then ['\\', c]
  else if c = '\n' then ['\\', 'n']
  else if c = '\r' then ['\\', 'r']
  else if c = '\t' then ['\\', 't']
  else if c = '\x00' then ['\\', '0']
  else if showsItself c then [c]
  else '\\' :: 'u' :: '\x7b' :: Hexadecimal.digits c.toNat ++ ['\x7d']

/-- The text in double quotes. -/
def quoted (s : String) : String :=
  String.ofList ('"' :: s.toList.flatMap quotedChar ++ ['"'])

end HandlerScript.Text
