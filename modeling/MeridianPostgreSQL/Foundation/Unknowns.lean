import Mathlib.Logic.Basic

/-! # Unknown values

Conditions of SQL over values that may be missing. A condition on a missing
value is not known, and what is not known selects no row. -/

namespace MeridianPostgreSQL.Unknowns

universe u

/-- A condition that is not known is `none`. -/
abbrev Condition := Option Bool

def Condition.negated (condition : Condition) : Condition := condition.map not

def Condition.both : Condition → Condition → Condition
  | some false, _ => some false
  | _, some false => some false
  | some true, some true => some true
  | _, _ => none

def Condition.either : Condition → Condition → Condition
  | some true, _ => some true
  | _, some true => some true
  | some false, some false => some false
  | _, _ => none

theorem both_iff {left right : Condition} :
    left.both right = some true ↔ left = some true ∧ right = some true := by
  rcases left with _ | _ | _ <;> rcases right with _ | _ | _ <;> simp [Condition.both]

theorem negated_iff {condition : Condition} :
    condition.negated = some true ↔ condition = some false := by
  rcases condition with _ | _ | _ <;> simp [Condition.negated]

/-- What is not known stays so beside what does not hold. -/
theorem either_unknown {condition : Condition} (fails : condition ≠ some true) :
    Condition.either none condition = none := by
  rcases condition with _ | _ | _
  · rfl
  · rfl
  · exact absurd rfl fails

section Comparisons

variable {α : Type u} [DecidableEq α]

/-- `left = right` -/
def equals (left right : Option α) : Condition :=
  left.bind fun first => right.map fun second => first = second

/-- `value = ANY(items)` -/
def among (value : Option α) : List (Option α) → Condition
  | [] => some false
  | item :: rest => (equals value item).either (among value rest)

theorem equals_some (first second : α) : equals (some first) (some second) =
    some (decide (first = second)) := rfl

theorem equals_none (right : Option α) : equals none right = none := rfl

theorem equals_iff {left : Option α} {second : α} :
    equals left (some second) = some true ↔ left = some second := by
  cases left with
  | none => simp [equals]
  | some first => simp [equals]

theorem among_some (value : α) (items : List α) :
    among (some value) (items.map some) = some (decide (value ∈ items)) := by
  induction items with
  | nil => rfl
  | cons item rest induction =>
      rw [List.map_cons, among, induction, equals_some]
      by_cases same : value = item <;> by_cases later : value ∈ rest <;>
        simp [Condition.either, same, later]

theorem among_none_ne (items : List (Option α)) : among none items ≠ some true := by
  induction items with
  | nil => exact nofun
  | cons item rest induction =>
      rw [among, equals_none, either_unknown induction]
      exact nofun

theorem among_none {item : Option α} {rest : List (Option α)} :
    among none (item :: rest) = none :=
  either_unknown (among_none_ne rest)

end Comparisons

end MeridianPostgreSQL.Unknowns
