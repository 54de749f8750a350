/-! Signed words of 64 bits. -/

namespace HandlerScript.Word

/-- An integer as a word, if it fits into one. -/
def ofInt? (n : Int) : Option Int64 :=
  if Int64.minValue.toInt ≤ n ∧ n ≤ Int64.maxValue.toInt then some (Int64.ofInt n) else none

end HandlerScript.Word
