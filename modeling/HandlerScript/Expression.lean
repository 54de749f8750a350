import HandlerScript.Number.Shortest
import HandlerScript.Text.Blank

/-! Arithmetic over number texts.

    An expression is evaluated on its characters. A group in parentheses is replaced by the text of
    its value, the last opening parenthesis first. What is then left is split at its first sum
    operator, else at its first product operator, and both sides are evaluated alike, so operators
    group to the right. A plus or minus sign at the front or after another operator belongs to the
    number behind it. Whatever is malformed counts as zero. -/

namespace HandlerScript.Expression

inductive Operator where
  | add
  | sub
  | mul
  | div
  deriving DecidableEq, Repr

def Operator.apply : Operator → Float → Float → Float
  | .add, x, y => x + y
  | .sub, x, y => x - y
  | .mul, x, y => x * y
  | .div, x, y => x / y

def sum? : Char → Option Operator
  | '+' => some .add
  | '-' => some .sub
  | _ => none

def product? : Char → Option Operator
  | '*' => some .mul
  | '/' => some .div
  | _ => none

/-- The characters after which a plus or minus is a sign. -/
def opensOperand (c : Char) : Bool :=
  c == '+' || c == '-' || c == '*' || c == '/' || c == '('

/-- The first binary operator behind the character `prev`, with the two sides of it. -/
def splitAfter (op? : Char → Option Operator) (prev : Char) :
    List Char → Option (List Char × Operator × List Char)
  | [] => none
  | c :: cs =>
    match op? c with
    | some op =>
      if (sum? c).isSome && opensOperand prev then
        (splitAfter op? c cs).map fun (l, o, r) => (c :: l, o, r)
      else some ([], op, cs)
    | none => (splitAfter op? c cs).map fun (l, o, r) => (c :: l, o, r)

/-- The first binary operator of a text; its first character is never one. -/
def split (op? : Char → Option Operator) : List Char → Option (List Char × Operator × List Char)
  | [] => none
  | c :: cs => (splitAfter op? c cs).map fun (l, o, r) => (c :: l, o, r)

theorem length_splitAfter {op? : Char → Option Operator} {l r : List Char} {o : Operator} :
    ∀ {cs : List Char} {prev : Char}, splitAfter op? prev cs = some (l, o, r) →
      l.length < cs.length ∧ r.length < cs.length
  | [], _, h => by simp [splitAfter] at h
  | c :: cs, prev, h => by
    have step : ∀ {x : Option (List Char × Operator × List Char)},
        x = splitAfter op? c cs → x.map (fun (l, o, r) => (c :: l, o, r)) = some (l, o, r) →
        l.length < (c :: cs).length ∧ r.length < (c :: cs).length := by
      intro x hx hm
      obtain ⟨⟨l', o', r'⟩, h', heq⟩ := Option.map_eq_some_iff.1 hm
      simp only [Prod.mk.injEq] at heq
      obtain ⟨rfl, rfl, rfl⟩ := heq
      have := length_splitAfter (hx ▸ h')
      simp only [List.length_cons]
      omega
    unfold splitAfter at h
    split at h
    · split at h
      · exact step rfl h
      · simp only [Option.some.injEq, Prod.mk.injEq] at h
        obtain ⟨rfl, rfl, rfl⟩ := h
        simp
    · exact step rfl h

theorem length_split {op? : Char → Option Operator} {l r cs : List Char} {o : Operator}
    (h : split op? cs = some (l, o, r)) : l.length < cs.length ∧ r.length < cs.length := by
  cases cs with
  | nil => simp [split] at h
  | cons c cs =>
    obtain ⟨⟨l', o', r'⟩, h', heq⟩ := Option.map_eq_some_iff.1 h
    simp only [Prod.mk.injEq] at heq
    obtain ⟨rfl, rfl, rfl⟩ := heq
    have := length_splitAfter h'
    simp only [List.length_cons]
    omega

/-- The value of a text without groups. -/
def flat (cs : List Char) : Float :=
  match h : split sum? cs with
  | some (l, op, r) =>
    have := length_split h
    op.apply (flat l) (flat r)
  | none =>
    match h : split product? cs with
    | some (l, op, r) =>
      have := length_split h
      op.apply (flat l) (flat r)
    | none => (Decimal.float? cs).getD 0.0
termination_by cs.length

/-- The text with every group replaced by its value, read from its end: an opening parenthesis takes
    all up to the first closing one that is left behind it. Fails if there is none. -/
def collapse : List Char → Option (List Char)
  | [] => some []
  | c :: cs => do
    let behind ← collapse cs
    if c = '(' then
      match behind.span (· != ')') with
      | (inside, _ :: rest) => some (Decimal.plain (flat inside) ++ rest)
      | (_, []) => none
    else some (c :: behind)

/-- The text without groups, if its parentheses match. -/
def flatten? (cs : List Char) : Option (List Char) :=
  match collapse cs with
  | some flat => if flat.contains ')' then none else some flat
  | none => none

/-- The value of an expression, zero if its parentheses do not match. -/
def value (text : String) : Float :=
  match flatten? (text.toList.filter fun c => !Text.isBlank c) with
  | some cs => flat cs
  | none => 0.0

end HandlerScript.Expression
