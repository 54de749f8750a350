import HandlerScript.Proofs.Run.Meets
import HandlerScript.Proofs.Table
import Mathlib.Algebra.Order.Floor.Semifield
import Mathlib.Data.Rat.Floor

/-! A `ForEach` is its rounds in a row.

    What a `ForEach` does is settled when it starts: the names of its two variables, and the list of its
    rounds, each with an index and an item. The list is made from the text of a count or from a text of
    items, as both resolve in the world at the start, and no later world is asked again. So the loop is
    a fold over that list: each round sets the two variables and runs the body in the world that the
    round before has left, up to the first fault. -/

namespace HandlerScript

/-! ### The rounds -/

/-- The number that its parts stand for. -/
def Binary64.Parts.value? : Parts → Option ℚ
  | .finite negative mantissa exponent =>
    some ((if negative then -1 else 1) * mantissa * 2 ^ exponent)
  | _ => none

/-- A number as a count: the integer part of a positive finite number, up to the greatest integer of 64
    bits, and none otherwise. -/
def Binary64.countOf (x : Float) : Nat :=
  match (parts x).value? with
  | some q => if 0 < q then min ⌊q⌋₊ (2 ^ 63 - 1) else 0
  | none => 0

/-- The trimmed texts between the commas of a text, without those that are empty. -/
def Text.tokens (text : String) : List String :=
  ((text.toList.splitOn ',').map fun piece => trim (String.ofList piece)).filter (· ≠ "")

/-- The rounds of a `ForEach` in a scope: the index of each and its item. -/
def Scope.rounds (s : Scope) (node : Node) : List (Int64 × Scalar) :=
  match s.attr? node "count" with
  | some text => (List.range (Binary64.countOf (Scalar.numberOf text))).map fun i =>
      (Int64.ofNat i, .int (Int64.ofNat i))
  | none => (Text.tokens ((s.attrOf? node ["items", "in"]).getD "")).zipIdx.map fun (token, i) =>
      (Int64.ofNat i, .str token)

/-- The world in which a round runs the body. -/
def Scope.enter (s : Scope) (node : Node) (round : Int64 × Scalar) (w : World) : World :=
  (w.set (s.indexName node) (.int round.1)).set (s.itemName node) round.2

/-- Runs rounds in order, each from the world that the one before leaves, up to the first fault. -/
def runRounds {α : Type} (round : α → World → Run) (rounds : List α) (w : World) : Run :=
  rounds.foldl (fun r x => r.andThen (round x)) (.done w)

section Folding

variable {α β : Type} (round : α → World → Run)

theorem foldl_andThen (xs : List α) (r : Run) :
    xs.foldl (fun r x => r.andThen (round x)) r = r.andThen (runRounds round xs) := by
  induction xs generalizing r with
  | nil => cases r <;> rfl
  | cons x xs ih =>
    have hx : runRounds round (x :: xs) = fun w => (round x w).andThen (runRounds round xs) :=
      funext fun w => ih (round x w)
    rw [List.foldl_cons, ih, hx]
    cases r <;> rfl

theorem runRounds_cons (x : α) (xs : List α) (w : World) :
    runRounds round (x :: xs) w = (round x w).andThen (runRounds round xs) :=
  foldl_andThen round xs (round x w)

theorem runRounds_append (xs ys : List α) (w : World) :
    runRounds round (xs ++ ys) w = (runRounds round xs w).andThen (runRounds round ys) := by
  rw [runRounds, List.foldl_append, foldl_andThen]
  rfl

theorem runRounds_map (g : β → α) (ys : List β) (w : World) :
    runRounds round (ys.map g) w = runRounds (fun y => round (g y)) ys w := by
  rw [runRounds, List.foldl_map]
  rfl

/-- Behind rounds that end well stands the next one, in the world that they have left. -/
theorem runRounds_of_take {xs : List α} {k : Nat} {x : α} (hx : xs[k]? = some x) {w w' : World}
    (hbefore : runRounds round (xs.take k) w = .done w') :
    runRounds round xs w = (round x w').andThen (runRounds round (xs.drop (k + 1))) := by
  obtain ⟨hk, hget⟩ := List.getElem?_eq_some_iff.1 hx
  have hsplit : runRounds round xs w =
      (runRounds round (xs.take k) w).andThen (runRounds round (xs.drop k)) := by
    rw [← runRounds_append, List.take_append_drop]
  rw [hsplit, hbefore, List.drop_eq_getElem_cons hk, hget]
  exact runRounds_cons round x _ w'

end Folding

theorem forCount_eq_runRounds (body : Nat → World → Run) (n i : Nat) (w : World) :
    forCount body n i w = runRounds body (List.range' i n) w := by
  induction n generalizing i w with
  | zero => rfl
  | succ n ih =>
    rw [forCount, List.range'_succ, runRounds_cons]
    congr 1
    exact funext (ih (i + 1))

theorem forItems_eq_runRounds (body : Nat → String → World → Run) (ts : List String) (i : Nat)
    (w : World) :
    forItems body i ts w = runRounds (fun x => body x.2 x.1) (ts.zipIdx i) w := by
  induction ts generalizing i w with
  | nil => rfl
  | cons t ts ih =>
    rw [forItems, List.zipIdx_cons, runRounds_cons]
    congr 1
    exact funext (ih (i + 1))

/-! ### Counts and items -/

namespace Binary64

/-- Shifting a mantissa to its place cuts the number off. -/
theorem floor_value (m : Nat) (e : Int) :
    ⌊(m : ℚ) * 2 ^ e⌋₊ = m <<< e.toNat >>> (-e).toNat := by
  rw [Nat.shiftLeft_eq, Nat.shiftRight_eq_div_pow]
  rcases Int.le_total 0 e with h | h
  · lift e to ℕ using h
    have hneg : (-(e : Int)).toNat = 0 := by omega
    rw [hneg, Int.toNat_natCast, zpow_natCast, Nat.pow_zero, Nat.div_one]
    exact_mod_cast Nat.floor_natCast (m * 2 ^ e)
  · obtain ⟨k, rfl⟩ : ∃ k : Nat, e = -k := ⟨(-e).toNat, by omega⟩
    have hpos : (-(k : Int)).toNat = 0 := by omega
    rw [hpos, Int.neg_neg, Int.toNat_natCast, zpow_neg, zpow_natCast, Nat.pow_zero, Nat.mul_one,
      ← div_eq_mul_inv]
    exact_mod_cast Nat.floor_div_eq_div (K := ℚ) m (2 ^ k)

theorem countOf_eq (x : Float) : countOf x = min (toCount x) Int64.maxValue.toNatClampNeg := by
  have hmax : Int64.maxValue.toNatClampNeg = 2 ^ 63 - 1 := by decide
  rw [hmax, toCount, countOf]
  cases parts x with
  | nan => rfl
  | infinite negative => rfl
  | finite negative m e =>
    have hplace : (0 : ℚ) < 2 ^ e := zpow_pos two_pos e
    have hnonneg : (0 : ℚ) ≤ m * 2 ^ e := mul_nonneg m.cast_nonneg hplace.le
    cases negative with
    | true =>
      have hneg : ¬ (0 : ℚ) < -1 * m * 2 ^ e := by linarith
      simp only [Parts.value?, if_true, if_neg hneg, Nat.zero_min]
    | false =>
      simp only [Parts.value?, Bool.false_eq_true, if_false, one_mul]
      split
      · rw [floor_value]
      · rename_i hzero
        rw [← floor_value, Nat.floor_of_nonpos (not_lt.1 hzero), Nat.zero_min]

end Binary64

namespace Text

theorem piecesAt_eq_splitOn (sep : Char) (cs : List Char) : piecesAt sep cs = cs.splitOn sep := by
  induction cs with
  | nil => rfl
  | cons c cs ih =>
    have hcons : (c :: cs).splitOn sep = if (c == sep) = true then [] :: cs.splitOn sep
        else (cs.splitOn sep).modifyHead (c :: ·) := List.splitOnP_cons_eq_if_modifyHead c cs
    rw [piecesAt, ih, hcons]
    by_cases hc : c = sep
    · rw [if_pos hc, if_pos (beq_iff_eq.2 hc)]
    · rw [if_neg hc, if_neg fun h => hc (beq_iff_eq.1 h)]
      cases hpieces : cs.splitOn sep with
      | nil => exact absurd hpieces (List.splitOnP_ne_nil _ cs)
      | cons piece pieces => rfl

theorem tokens_eq (s : String) : tokens s = items s := by
  rw [tokens, items, piecesAt_eq_splitOn]
  induction s.toList.splitOn ',' with
  | nil => rfl
  | cons piece pieces ih =>
    rw [List.map_cons, List.filter_cons, List.filterMap_cons, ih, nonBlank?]
    by_cases hempty : trim (String.ofList piece) = "" <;> simp [hempty]

end Text

/-! ### The loop -/

/-- The body of a `ForEach` in one round. -/
def roundOf (p : Program) (depth : Nat) (sender : Option String) (s : Scope) (node : Node)
    (round : Int64 × Scalar) (w : World) : Run :=
  runAll (execute p depth sender) node.children (s.enter node round w)

theorem forEach_eq_runRounds (s : Scope) (all : List Node → World → Run) (node : Node) (w : World) :
    forEach s all node w =
      runRounds (fun round w => all node.children (s.enter node round w)) (s.rounds node) w := by
  unfold forEach Scope.rounds
  cases s.attr? node "count" with
  | some count =>
    dsimp only
    rw [forCount_eq_runRounds, runRounds_map, ← List.range_eq_range', Binary64.countOf_eq]
    rfl
  | none =>
    dsimp only
    rw [forItems_eq_runRounds, runRounds_map, Text.tokens_eq]
    rfl

theorem countOf_lt (x : Float) : Binary64.countOf x < 2 ^ 63 := by
  rw [Binary64.countOf_eq]
  have hmax : Int64.maxValue.toNatClampNeg < 2 ^ 63 := by decide
  exact Nat.lt_of_le_of_lt (Nat.min_le_right _ _) hmax

/-- The rounds of a count are numbered from zero on, without a gap. -/
theorem toInt_of_mem_rounds {s : Scope} {node : Node} {text : String}
    (hcount : s.attr? node "count" = some text) {k : Nat} {x : Int64 × Scalar}
    (hx : (s.rounds node)[k]? = some x) : x.1.toInt = k := by
  simp only [Scope.rounds, hcount, List.getElem?_map, Option.map_eq_some_iff] at hx
  obtain ⟨i, hi, rfl⟩ := hx
  obtain ⟨hk, hget⟩ := List.getElem?_eq_some_iff.1 hi
  rw [List.getElem_range] at hget
  subst hget
  exact Int64.toInt_ofNat_of_lt ((List.length_range ▸ hk).trans (countOf_lt _))

/-- The body of a round finds the index and the item of that round, whatever was there before. -/
theorem get?_enter (s : Scope) (node : Node) (x : Int64 × Scalar) (w : World) :
    (s.enter node x w).store.get? (s.itemName node) = some x.2 ∧
    (s.indexName node ≠ s.itemName node →
      (s.enter node x w).store.get? (s.indexName node) = some (.int x.1)) := by
  constructor
  · exact (Table.get?_insert _ _ _ _).trans (if_pos rfl)
  · intro hne
    exact (Table.get?_insert _ _ _ _).trans ((if_neg hne).trans
      ((Table.get?_insert _ _ _ _).trans (if_pos rfl)))

/-- A `ForEach` comes to what its rounds come to in order, up to the first fault, at every depth of the
    body. The rounds are those of the world in which it starts: wherever the rounds before have led, the
    next one finds its own index and item in the variables, and the same rounds are still to come.
    Under a count the rounds are numbered from zero on. -/
theorem forEach_unrolls (p : Program) (sender : Option String) (node : Node) (w : World)
    (htag : node.hasTag "ForEach" = true) :
    (∀ depth, execute p (depth + 1) sender node w =
      runRounds (roundOf p depth sender (w.scope sender) node) ((w.scope sender).rounds node) w) ∧
    (∀ depth k x w', ((w.scope sender).rounds node)[k]? = some x →
      runRounds (roundOf p depth sender (w.scope sender) node)
        (((w.scope sender).rounds node).take k) w = .done w' →
      execute p (depth + 1) sender node w =
        (roundOf p depth sender (w.scope sender) node x w').andThen
          (runRounds (roundOf p depth sender (w.scope sender) node)
            (((w.scope sender).rounds node).drop (k + 1)))) ∧
    (∀ x w', ((w.scope sender).enter node x w').store.get? ((w.scope sender).itemName node) =
        some x.2 ∧
      ((w.scope sender).indexName node ≠ (w.scope sender).itemName node →
        ((w.scope sender).enter node x w').store.get? ((w.scope sender).indexName node) =
          some (.int x.1))) ∧
    ∀ text (k : Nat) (x : Int64 × Scalar), (w.scope sender).attr? node "count" = some text →
      ((w.scope sender).rounds node)[k]? = some x → x.1.toInt = k := by
  have hc : Command.ofTag node.tag = .forEach := Command.ofTag_of_hasTag htag
  have hrounds : ∀ depth, execute p (depth + 1) sender node w =
      runRounds (roundOf p depth sender (w.scope sender) node) ((w.scope sender).rounds node) w := by
    intro depth
    rw [execute, step_forEach hc, forEach_eq_runRounds]
    rfl
  refine ⟨hrounds, fun depth k x w' hx hbefore => ?_, get?_enter (w.scope sender) node,
    fun text k x hcount => toInt_of_mem_rounds hcount⟩
  rw [hrounds]
  exact runRounds_of_take _ hx hbefore

/-- A loop over the items in a variable, whose body writes over that variable. -/
def Node.overwriting : Node where
  tag := "foreach"
  attributes := Table.ofList [("items", "{item}")]
  children := [{ tag := "Append", attributes := Table.ofList [("var", "seen"), ("value", "{item}")] },
    { tag := "Clear", attributes := Table.ofList [("var", "item")] }]

/-- A world in which the variable holds two items, with a blank between them. -/
def World.listing : World := World.set {} "item" (.str " a, ,b ")

theorem forEach_unrolls_overwriting : Node.overwriting.hasTag "ForEach" = true ∧
    (World.listing.scope none).rounds .overwriting = [(0, .str "a"), (1, .str "b")] ∧
    ∃ w₁, w₁.store.get? "item" = some (.str "") ∧
      execute {} 2 none .overwriting .listing =
        (roundOf {} 1 none (World.listing.scope none) .overwriting (1, .str "b") w₁).andThen .done ∧
      (execute {} 2 none .overwriting .listing).world?.map (·.store.get? "seen" |>.map Scalar.text) =
        some (some "ab") := by
  have htag : Node.overwriting.hasTag "ForEach" = true := by decide +kernel
  have hrounds : (World.listing.scope none).rounds .overwriting =
      [(0, .str "a"), (1, .str "b")] := rfl
  obtain ⟨w₁, hfirst, hitem⟩ : ∃ w₁, runRounds
      (roundOf {} 1 none (World.listing.scope none) .overwriting) [(0, .str "a")] .listing = .done w₁ ∧
      w₁.store.get? "item" = some (.str "") := ⟨_, rfl, rfl⟩
  obtain ⟨-, hnext, -, -⟩ := forEach_unrolls {} none .overwriting .listing htag
  have hsecond := hnext 1 1 (1, .str "b") w₁ (by rw [hrounds]; rfl) (by rw [hrounds]; exact hfirst)
  rw [hrounds] at hsecond
  exact ⟨htag, hrounds, w₁, hitem, hsecond, by decide +kernel⟩

end HandlerScript
