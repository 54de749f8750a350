import HandlerScript.Sha256

/-! Fresh identifiers: thirty-two hexadecimal digits in five groups.

    They are drawn one after the other from a seed. The digits of version and variant are those of
    random identifiers. -/

namespace HandlerScript.Identifier

/-- The sixteen bytes of the identifier with a number, with version and variant set. -/
def bytes (seed number : Nat) : List UInt8 :=
  let raw := Sha256.digest (toString seed ++ "/" ++ toString number).toUTF8.toList
  (raw.take 16).zipIdx.map fun (b, i) =>
    if i = 6 then (b &&& 0x0F) ||| 0x40 else if i = 8 then (b &&& 0x3F) ||| 0x80 else b

/-- The identifier with a number. -/
def text (seed number : Nat) : String :=
  String.ofList ((bytes seed number).zipIdx.flatMap fun (b, i) =>
    (if i = 4 ∨ i = 6 ∨ i = 8 ∨ i = 10 then ['-'] else []) ++ Hexadecimal.ofByte b)

end HandlerScript.Identifier
