import HandlerScript.Proofs.Number.Bits
import HandlerScript.Proofs.Table
import HandlerScript.Store

/-! A store is one machine for each name.

    A step names a variable and either sets it or performs arithmetic on it. It changes the value of this
    variable as a machine with one cell would, and no other variable. A step is refused for its operand
    alone, whatever is in the store, and then changes nothing. So what a sequence of steps leaves under a
    name is what the steps on the name leave in one cell, and the names of the store are those of the
    steps that were not refused. -/

namespace HandlerScript

/-- The numbers that are equal to zero are the zeros of either sign. -/
theorem Binary64.beq_zero_iff_eq {x : Float} : (x == 0.0) = true ↔ x = 0.0 ∨ x = -0.0 := by
  rw [beq_zero_iff]
  constructor
  · rintro ⟨negative, exponent, h⟩
    obtain ⟨hfits, -⟩ := of_parts_finite h
    have hexponent : exponent = leastExponent := hfits.filled.resolve_left (by decide)
    rw [← compose_parts h, hexponent]
    cases negative with
    | false => exact .inl (by decide)
    | true => exact .inr (by decide)
  · rintro (rfl | rfl)
    · exact ⟨false, leastExponent, by decide⟩
    · exact ⟨true, leastExponent, by decide⟩

namespace Store

/-- What can be done to a variable. -/
inductive Step where
  | set (name : String) (value : Scalar)
  | arithmetic (op : Arithmetic) (name : String) (operand : Scalar)

namespace Step

/-- The variable that a step is about. -/
def name : Step → String
  | .set name _ => name
  | .arithmetic _ name _ => name

/-- The number that an arithmetic step makes of the value of its variable, unless it is refused; an
    absent variable counts as zero. -/
def number? (op : Arithmetic) (operand : Scalar) (current : Option Scalar) : Option Float :=
  let x := (current.map Scalar.toFloat).getD 0.0
  let y := operand.toFloat
  match op with
  | .add => some (x + y)
  | .subtract => some (x - y)
  | .multiply => some (x * y)
  | .divide => if y = 0.0 ∨ y = -0.0 then none else some (x / y)

/-- What a step makes of a cell with the value of its variable. -/
def act (current : Option Scalar) : Step → Option Scalar
  | .set _ value => some value
  | .arithmetic op _ operand => ((number? op operand current).map Scalar.float).or current

/-- A step that is refused divides by a zero of either sign. -/
def IsRefused : Step → Prop
  | .set .. => False
  | .arithmetic op _ operand => op = .divide ∧ (operand.toFloat = 0.0 ∨ operand.toFloat = -0.0)

instance : DecidablePred IsRefused
  | .set .. => inferInstanceAs (Decidable False)
  | .arithmetic op _ operand => decidable_of_iff (op = .divide ∧ (operand.toFloat == 0.0) = true)
      (and_congr_right fun _ => Binary64.beq_zero_iff_eq)

/-- Only division is refused, and only by a zero. -/
theorem number?_eq_none_iff {op : Arithmetic} {operand : Scalar} {current : Option Scalar} :
    number? op operand current = none ↔
      op = .divide ∧ (operand.toFloat = 0.0 ∨ operand.toFloat = -0.0) := by
  cases op with
  | add => exact ⟨nofun, nofun⟩
  | subtract => exact ⟨nofun, nofun⟩
  | multiply => exact ⟨nofun, nofun⟩
  | divide =>
    unfold number?
    dsimp only
    split
    · rename_i hzero
      exact ⟨fun _ => ⟨rfl, hzero⟩, fun _ => rfl⟩
    · rename_i hzero
      exact ⟨nofun, fun h => absurd h.2 hzero⟩

end Step

/-- The store after a step. -/
def after (s : Store) : Step → Store
  | .set name value => s.set name value
  | .arithmetic op name operand => (s.apply op name operand).2

/-- The store after steps from an empty one. -/
def run (steps : List Step) : Store := steps.foldl after {}

section Steps

variable (s : Store)

theorem result?_eq (op : Arithmetic) (name : String) (operand : Scalar) :
    s.result? op name operand = Step.number? op operand (s.get? name) := by
  have hnumber : s.number name = ((s.get? name).map Scalar.toFloat).getD 0.0 := by
    rw [number]
    cases s.get? name <;> rfl
  rw [result?, hnumber]
  cases op with
  | add | subtract | multiply => rfl
  | divide => exact if_congr Binary64.beq_zero_iff_eq rfl rfl

/-- An arithmetic step answers with the number that it makes, and leaves it. -/
theorem apply_of_number? {op : Arithmetic} {name : String} {operand : Scalar} {x : Float}
    (h : Step.number? op operand (s.get? name) = some x) :
    s.apply op name operand = (some x, s.set name (.float x)) := by
  rw [apply, result?_eq, h]

/-- An arithmetic step that makes no number changes nothing. -/
theorem apply_of_refused {op : Arithmetic} {name : String} {operand : Scalar}
    (h : Step.number? op operand (s.get? name) = none) : s.apply op name operand = (none, s) := by
  rw [apply, result?_eq, h]

theorem fst_apply (op : Arithmetic) (name : String) (operand : Scalar) :
    (s.apply op name operand).1 = Step.number? op operand (s.get? name) := by
  cases hnumber : Step.number? op operand (s.get? name) with
  | none => rw [s.apply_of_refused hnumber]
  | some x => rw [s.apply_of_number? hnumber]

theorem get?_set (name : String) (value : Scalar) (x : String) :
    (s.set name value).get? x = if x = name then some value else s.get? x :=
  Table.get?_insert s.vars name value x

/-- A step acts on the cell of its name and on no other. -/
theorem get?_after (step : Step) (x : String) :
    (s.after step).get? x = if x = step.name then step.act (s.get? x) else s.get? x := by
  cases step with
  | set name value => exact s.get?_set name value x
  | arithmetic op name operand =>
    rw [after, Step.act, Step.name]
    cases hnumber : Step.number? op operand (s.get? name) with
    | none =>
      rw [s.apply_of_refused hnumber]
      split
      · rename_i hx
        rw [hx, hnumber]
        rfl
      · rfl
    | some number =>
      rw [s.apply_of_number? hnumber, get?_set]
      split
      · rename_i hx
        rw [hx, hnumber]
        rfl
      · rfl

/-- A step leaves its cell empty only if it is refused and the cell was empty. -/
theorem Step.isSome_act (step : Step) (current : Option Scalar) :
    (step.act current).isSome = true ↔ ¬ step.IsRefused ∨ current.isSome = true := by
  cases step with
  | set name value => exact ⟨fun _ => .inl id, fun _ => rfl⟩
  | arithmetic op name operand =>
    have hrefused : number? op operand current = none ↔ (arithmetic op name operand).IsRefused :=
      number?_eq_none_iff
    rw [← hrefused, act, Option.isSome_or, Option.isSome_map, Bool.or_eq_true,
      Option.isSome_iff_ne_none, Ne]

/-- A step enters its name unless it is refused. -/
theorem contains_after (step : Step) (x : String) :
    (s.after step).contains x = true ↔ (step.name = x ∧ ¬ step.IsRefused) ∨ s.contains x = true := by
  have hget : (s.after step).contains x = ((s.after step).get? x).isSome := rfl
  have hget' : s.contains x = (s.get? x).isSome := rfl
  rw [hget, hget', get?_after]
  split
  · rename_i hx
    rw [Step.isSome_act, hx, and_iff_right rfl]
  · rename_i hx
    rw [or_iff_right fun h => hx h.1.symm]

end Steps

/-! ### Runs -/

theorem get?_foldl_after (steps : List Step) (s : Store) (name : String) :
    (steps.foldl after s).get? name =
      (steps.filter (·.name == name)).foldl (fun current step => step.act current) (s.get? name) := by
  induction steps generalizing s with
  | nil => rfl
  | cons step steps ih =>
    rw [List.foldl_cons, ih, get?_after, List.filter_cons]
    by_cases hname : name = step.name
    · rw [if_pos hname, if_pos (beq_iff_eq.2 hname.symm), List.foldl_cons]
    · rw [if_neg hname, if_neg fun h => hname (beq_iff_eq.1 h).symm]

theorem contains_foldl_after (steps : List Step) (s : Store) (name : String) :
    (steps.foldl after s).contains name = true ↔
      (∃ step ∈ steps, step.name = name ∧ ¬ step.IsRefused) ∨ s.contains name = true := by
  induction steps generalizing s with
  | nil => simp
  | cons step steps ih =>
    rw [List.foldl_cons, ih, contains_after]
    simp only [List.mem_cons, or_and_right, exists_or, exists_eq_left]
    rw [or_assoc, or_left_comm]

/-- The names of a store are those of the steps that were not refused. -/
theorem contains_run {steps : List Step} {name : String} : (run steps).contains name = true ↔
    ∃ step ∈ steps, step.name = name ∧ ¬ step.IsRefused :=
  (contains_foldl_after steps {} name).trans (or_iff_left Bool.false_ne_true)

/-- What a store is after steps from an empty one, name by name. -/
structure Follows (steps : List Step) (s : Store) : Prop where
  /-- A variable has the value that the steps on it leave in a cell of its own. -/
  value : ∀ name, s.get? name =
    (steps.filter (·.name == name)).foldl (fun current step => step.act current) none
  contains : ∀ name, s.contains name = true ↔
    ∃ step ∈ steps, step.name = name ∧ ¬ step.IsRefused
  /-- What another arithmetic step would answer depends on the value of its variable alone. -/
  answer : ∀ op name operand,
    (s.apply op name operand).1 = Step.number? op operand (s.get? name)
  refused : ∀ op name operand, (s.apply op name operand).1 = none ↔
    op = .divide ∧ (operand.toFloat = 0.0 ∨ operand.toFloat = -0.0)
  unchanged : ∀ op name operand, (s.apply op name operand).1 = none →
    (s.apply op name operand).2 = s
  stored : ∀ op name operand x, (s.apply op name operand).1 = some x →
    (s.apply op name operand).2 = s.set name (.float x)
  size : s.size = ((steps.filter fun step => ¬ step.IsRefused).map Step.name).dedup.length
  isEmpty : s.isEmpty = true ↔ s.size = 0
  increasing : (s.snapshot.map Prod.fst).Pairwise (· < ·)
  snapshot : ∀ name value, (name, value) ∈ s.snapshot ↔ s.get? name = some value

/-- A store goes through steps as a machine for each name. -/
theorem run_follows (steps : List Step) : Follows steps (run steps) where
  value := get?_foldl_after steps {}
  contains _ := contains_run
  answer op name operand := (run steps).fst_apply op name operand
  refused op name operand := by
    rw [fst_apply]
    exact Step.number?_eq_none_iff
  unchanged op name operand h := by
    rw [fst_apply] at h
    rw [apply_of_refused _ h]
  stored op name operand x h := by
    rw [fst_apply] at h
    rw [apply_of_number? _ h]
  size := by
    refine Table.size_eq_length_dedup fun name => ?_
    rw [← Table.contains_iff, List.mem_map]
    refine contains_run.trans (exists_congr fun step => ?_)
    rw [List.mem_filter, decide_eq_true_eq, and_assoc, and_comm (a := ¬ step.IsRefused)]
  isEmpty := List.isEmpty_iff.trans List.length_eq_zero_iff.symm
  increasing := (run steps).vars.names_increasing
  snapshot _ _ := Table.mem_entries_iff

/-- Steps on five names in turns. Two of them divide by a zero, one of these a variable that is absent. -/
def mixed : List Step :=
  [.set "n" (.str " 6 "), .arithmetic .divide "q" (.str "0"), .arithmetic .multiply "n" (.int 2),
    .arithmetic .add "N" (.bool true), .set "d" (.int 10), .arithmetic .subtract "n" (.float 1.5),
    .arithmetic .add "t" (.str "abc"), .arithmetic .divide "d" (.str "4"),
    .arithmetic .divide "n" (.float (-0.0))]

/-- What the steps leave under each name, and what two steps more would answer. -/
theorem run_follows_mixed : Follows mixed (run mixed) ∧
    (run mixed).get? "n" = some (.float 10.5) ∧ (run mixed).get? "N" = some (.float 1.0) ∧
    (run mixed).get? "t" = some (.float 0.0) ∧ (run mixed).get? "d" = some (.float 2.5) ∧
    (run mixed).get? "q" = none ∧ (run mixed).size = 4 ∧
    (run mixed).snapshot.map Prod.fst = ["N", "d", "n", "t"] ∧
    ((run mixed).apply .divide "d" (.int 5)).1 = some 0.5 ∧
    ((run mixed).apply .divide "q" (.float (-0.0))).1 = none := by
  have h : Follows mixed (run mixed) := run_follows mixed
  have htwice : Step.number? .multiply (.int 2) (some (.str " 6 ")) = some 12.0 := by decide +kernel
  have hless : Step.number? .subtract (.float 1.5) (some (.float 12.0)) = some 10.5 := by
    decide +kernel
  have hzero (current : Option Scalar) : Step.number? .divide (.float (-0.0)) current = none :=
    Step.number?_eq_none_iff.2 ⟨rfl, .inr rfl⟩
  have hone : Step.number? .add (.bool true) none = some 1.0 := by decide +kernel
  have hword : Step.number? .add (.str "abc") none = some 0.0 := by decide +kernel
  have hquarter : Step.number? .divide (.str "4") (some (.int 10)) = some 2.5 := by decide +kernel
  have hnought : Step.number? .divide (.str "0") none = none := by decide +kernel
  have hd : (run mixed).get? "d" = some (.float 2.5) := by
    rw [h.value]
    simp [mixed, Step.name, Step.act, hquarter]
  refine ⟨h, ?_, ?_, ?_, hd, ?_, h.size.trans (by decide +kernel), by decide +kernel, ?_, ?_⟩
  · rw [h.value]
    simp [mixed, Step.name, Step.act, htwice, hless, hzero]
  · rw [h.value]
    simp [mixed, Step.name, Step.act, hone]
  · rw [h.value]
    simp [mixed, Step.name, Step.act, hword]
  · rw [h.value]
    simp [mixed, Step.name, Step.act, hnought]
  · rw [h.answer, hd]
    decide +kernel
  · rw [h.answer, hzero]

end Store

end HandlerScript
