import Mathlib.Order.Lattice
import Mathlib.Data.List.Basic
import MeridianPostgreSQL.Foundation.Unknowns

/-! # Keysets

Rows that are sorted by keys which may be missing, the condition on the rows
after a given one, and the pages that it makes of a sorted list. -/

namespace MeridianPostgreSQL.Keysets

open Unknowns

universe u v

/-! ## Order -/

/-- How a key is sorted, and whether missing values come last. -/
structure Placement where
  descending : Bool
  nullsLast : Bool

section Order

variable {Value : Type u} [LinearOrder Value]

/-- Which of two values of a key comes strictly before the other. -/
def Placement.Before (placement : Placement) : Option Value → Option Value → Prop
  | some left, some right => if placement.descending = true then right < left else left < right
  | some _, none => placement.nullsLast = true
  | none, some _ => placement.nullsLast = false
  | none, none => False

instance (placement : Placement) (left right : Option Value) :
    Decidable (placement.Before left right) := by
  unfold Placement.Before
  cases left <;> cases right <;> infer_instance

variable {placement : Placement}

theorem Placement.before_irrefl (value : Option Value) : ¬ placement.Before value value := by
  cases value <;> simp [Before]

theorem Placement.before_trans {first second third : Option Value}
    (left : placement.Before first second) (right : placement.Before second third) :
    placement.Before first third := by
  rcases first with _ | first <;> rcases second with _ | second <;> rcases third with _ | third <;>
    simp only [Before] at left right ⊢
  · rw [left] at right
    cases right
  · exact left
  · rw [left] at right
    cases right
  · exact right
  · split at left
    · rw [if_pos ‹_›] at right ⊢
      exact right.trans left
    · rw [if_neg ‹_›] at right ⊢
      exact left.trans right

theorem Placement.before_or_before {left right : Option Value} (different : left ≠ right) :
    placement.Before left right ∨ placement.Before right left := by
  rcases left with _ | left <;> rcases right with _ | right
  · exact absurd rfl different
  · cases last : placement.nullsLast <;> simp [Before, last]
  · cases last : placement.nullsLast <;> simp [Before, last]
  · have values : left ≠ right := fun same => different (congrArg some same)
    simp only [Before]
    split
    · exact (lt_or_gt_of_ne values).symm
    · exact lt_or_gt_of_ne values

/-- A key of two rows, with its place in the order. -/
structure Compared (Value : Type u) where
  placement : Placement
  left : Option Value
  right : Option Value

/-- The left row comes strictly before the right one: the first keys that differ
decide. -/
def Before : List (Compared Value) → Prop
  | [] => False
  | key :: rest => key.placement.Before key.left key.right ∨ key.left = key.right ∧ Before rest

instance decidableBefore : (keys : List (Compared Value)) → Decidable (Before keys)
  | [] => inferInstanceAs (Decidable False)
  | _ :: rest => @instDecidableOr _ _ _ (@instDecidableAnd _ _ _ (decidableBefore rest))

/-- The keys by which rows are compared. -/
def compared {Row : Type v} (keys : List (Placement × (Row → Option Value))) (left right : Row) :
    List (Compared Value) :=
  keys.map fun key => ⟨key.1, key.2 left, key.2 right⟩

section Rows

variable {Row : Type v} {keys : List (Placement × (Row → Option Value))} {first second third : Row}

theorem before_irrefl (row : Row) : ¬ Before (compared keys row row) := by
  induction keys with
  | nil => exact id
  | cons key rest induction =>
      rintro (before | ⟨_, later⟩)
      · exact Placement.before_irrefl _ before
      · exact induction later

theorem before_trans (left : Before (compared keys first second))
    (right : Before (compared keys second third)) : Before (compared keys first third) := by
  induction keys with
  | nil => exact left
  | cons key rest induction =>
      rcases left with left | ⟨equal, left⟩
      · rcases right with right | ⟨same, _⟩
        · exact .inl (Placement.before_trans left right)
        · dsimp only at left same
          rw [same] at left
          exact .inl left
      · rcases right with right | ⟨same, right⟩
        · dsimp only at equal right
          rw [← equal] at right
          exact .inl right
        · exact .inr ⟨equal.trans same, induction left right⟩

/-- Rows that differ in a key are in some order. -/
theorem before_or_before (different : ∃ key ∈ keys, key.2 first ≠ key.2 second) :
    Before (compared keys first second) ∨ Before (compared keys second first) := by
  induction keys with
  | nil =>
      obtain ⟨key, listed, _⟩ := different
      cases listed
  | cons key rest induction =>
      by_cases same : key.2 first = key.2 second
      · have later : ∃ other ∈ rest, other.2 first ≠ other.2 second := by
          obtain ⟨other, listed, differs⟩ := different
          rcases List.mem_cons.mp listed with rfl | inside
          · exact absurd same differs
          · exact ⟨other, inside, differs⟩
        rcases induction later with before | after
        · exact .inl (.inr ⟨same, before⟩)
        · exact .inr (.inr ⟨same.symm, after⟩)
      · have either : key.1.Before _ _ ∨ key.1.Before _ _ := Placement.before_or_before same
        rcases either with before | after
        · exact .inl (.inl before)
        · exact .inr (.inl after)

end Rows

end Order

/-! ## Conditions -/

/-- Conditions joined by `AND`. -/
def allOf (conditions : List Condition) : Condition := conditions.foldr Condition.both (some true)

/-- Conditions joined by `OR`. -/
def anyOf (conditions : List Condition) : Condition :=
  conditions.foldr Condition.either (some false)

theorem both_known (left right : Bool) :
    Condition.both (some left) (some right) = some (left && right) := by
  cases left <;> cases right <;> rfl

theorem either_known (left right : Bool) :
    Condition.either (some left) (some right) = some (left || right) := by
  cases left <;> cases right <;> rfl

theorem true_both (condition : Condition) : Condition.both (some true) condition = condition := by
  rcases condition with _ | _ | _ <;> rfl

theorem both_true (condition : Condition) : condition.both (some true) = condition := by
  rcases condition with _ | _ | _ <;> rfl

theorem either_false (condition : Condition) : condition.either (some false) = condition := by
  rcases condition with _ | _ | _ <;> rfl

theorem allOf_known (values : List Bool) : allOf (values.map some) = some (values.all id) := by
  induction values with
  | nil => rfl
  | cons value rest induction =>
      change Condition.both (some value) (allOf (rest.map some)) = _
      rw [induction, both_known]
      rfl

theorem anyOf_known (values : List Bool) : anyOf (values.map some) = some (values.any id) := by
  induction values with
  | nil => rfl
  | cons value rest induction =>
      change Condition.either (some value) (anyOf (rest.map some)) = _
      rw [induction, either_known]
      rfl

section Conditions

variable {Value : Type u} [LinearOrder Value]

/-- `value IS NULL` -/
def missing (value : Option Value) : Condition := some value.isNone

/-- `value IS NOT NULL` -/
def present (value : Option Value) : Condition := some value.isSome

/-- `left < right` -/
def less (left right : Option Value) : Condition :=
  left.bind fun first => right.map fun second => first < second

/-- `left IS NOT DISTINCT FROM right` -/
def same (left right : Option Value) : Condition := some (left = right)

/-- `value > cursor`, or `value < cursor` where the key descends. -/
def Placement.beyond (placement : Placement) (cursor value : Option Value) : Condition :=
  if placement.descending = true then less value cursor else less cursor value

/-- The value of a key comes after that of the cursor. -/
def Placement.after (placement : Placement) (cursor value : Option Value) : Condition :=
  if cursor.isNone = true then
    if placement.nullsLast = true then some false else present value
  else if placement.nullsLast = true then
    (missing value).either ((present value).both (placement.beyond cursor value))
  else (present value).both (placement.beyond cursor value)

theorem Placement.beyond_some (placement : Placement) (cursor value : Value) :
    placement.beyond (some cursor) (some value) =
      some (decide (placement.Before (some cursor) (some value))) := by
  unfold beyond Before
  split <;> rfl

/-- A missing value leaves no condition unknown. -/
theorem Placement.after_eq (placement : Placement) (cursor value : Option Value) :
    placement.after cursor value = some (decide (placement.Before cursor value)) := by
  rcases cursor with _ | cursor
  · have truth : placement.after (none : Option Value) value =
        some (!placement.nullsLast && value.isSome) := by
      unfold after
      cases placement.nullsLast <;> rfl
    rw [truth, Option.some.injEq, Bool.eq_iff_iff, decide_eq_true_iff]
    cases value <;> simp [Before]
  · rcases value with _ | value
    · cases last : placement.nullsLast
      · have unknown : (present (none : Option Value)).both (placement.beyond (some cursor) none) =
            some false := rfl
        simp [after, Before, last, unknown]
      · have found : (missing (none : Option Value)).either ((present (none : Option Value)).both
            (placement.beyond (some cursor) none)) = some true := rfl
        simp [after, Before, last, found]
    · unfold after
      rw [beyond_some, missing, present, both_known, either_known]
      simp

/-- The keys before the index are the same, and the one at the index is after. -/
def branch (keys : List (Compared Value)) (index : Nat) : Condition :=
  allOf (((keys.take index).map fun key => same key.right key.left) ++
    ((keys[index]?).map fun key => key.placement.after key.left key.right).toList)

def keyset (keys : List (Compared Value)) : Condition :=
  anyOf ((List.range keys.length).map (branch keys))

theorem branch_zero (key : Compared Value) (rest : List (Compared Value)) :
    branch (key :: rest) 0 = key.placement.after key.left key.right := by
  rw [Placement.after_eq]
  change allOf [key.placement.after key.left key.right] = _
  rw [Placement.after_eq]
  exact (allOf_known [_]).trans (by simp)

theorem branch_succ (key : Compared Value) (rest : List (Compared Value)) (index : Nat) :
    branch (key :: rest) (index + 1) = (same key.right key.left).both (branch rest index) := rfl

theorem anyOf_both (condition : Bool) (values : List Condition)
    (known : ∃ truths : List Bool, values = truths.map some) :
    anyOf (values.map (Condition.both (some condition))) =
      Condition.both (some condition) (anyOf values) := by
  obtain ⟨truths, rfl⟩ := known
  rw [anyOf_known, both_known, List.map_map]
  have each : (Condition.both (some condition) ∘ some) = fun truth => some (condition && truth) := by
    funext truth
    exact both_known condition truth
  rw [each, show (truths.map fun truth => some (condition && truth)) =
    (truths.map fun truth => condition && truth).map some by simp, anyOf_known]
  cases condition <;> simp

theorem branch_known (keys : List (Compared Value)) (index : Nat) :
    ∃ truth : Bool, branch keys index = some truth := by
  induction keys generalizing index with
  | nil => exact ⟨true, by simp [branch, allOf]⟩
  | cons key rest induction =>
      cases index with
      | zero => exact ⟨_, (branch_zero key rest).trans (Placement.after_eq _ _ _)⟩
      | succ index =>
          obtain ⟨truth, known⟩ := induction index
          exact ⟨decide (key.right = key.left) && truth, by
            rw [branch_succ, known, same, both_known]⟩

/-- The keyset of a row holds of the rows strictly after it, and is known of
every row. -/
theorem keyset_eq (keys : List (Compared Value)) : keyset keys = some (decide (Before keys)) := by
  induction keys with
  | nil => rfl
  | cons key rest induction =>
      have others : ∃ truths : List Bool,
          (List.range rest.length).map (branch rest) = truths.map some := by
        choose truths known using branch_known rest
        exact ⟨(List.range rest.length).map truths, by
          rw [List.map_map]
          exact List.map_congr_left fun index _ => known index⟩
      have split : keyset (key :: rest) = Condition.either
          (key.placement.after key.left key.right)
          ((same key.right key.left).both (keyset rest)) := by
        unfold keyset
        rw [List.length_cons, List.range_succ_eq_map, List.map_cons, branch_zero, List.map_map]
        change Condition.either _ (anyOf _) = _
        rw [show (branch (key :: rest) ∘ Nat.succ) = Condition.both (same key.right key.left) ∘
          branch rest by rfl, ← List.map_map]
        congr 1
        exact anyOf_both _ _ others
      rw [split, induction, Placement.after_eq, same, both_known, either_known,
        Option.some.injEq, Bool.eq_iff_iff, decide_eq_true_iff]
      have reversed : key.right = key.left ↔ key.left = key.right := eq_comm
      simp only [Bool.or_eq_true, Bool.and_eq_true, decide_eq_true_eq, Before, reversed]

end Conditions

/-! ## Pages -/

section Pages

variable {Row : Type v} {before : Row → Row → Prop} [DecidableRel before] {rows : List Row}

/-- What comes after a row of a sorted list is the rest of it. -/
theorem filter_after (irreflexive : ∀ row, ¬ before row row)
    (transitive : ∀ {first second third}, before first second → before second third →
      before first third)
    (sorted : rows.Pairwise before) {count : Nat} {last : Row}
    (found : (rows.take count).getLast? = some last) :
    rows.filter (fun row => before last row) = rows.drop count := by
  obtain ⟨front, split⟩ := List.getLast?_eq_some_iff.mp found
  have whole : rows = (front ++ [last]) ++ rows.drop count := by
    rw [← split, List.take_append_drop]
  rw [whole] at sorted
  obtain ⟨earlier, _, apart⟩ := List.pairwise_append.mp sorted
  have front_before : ∀ row ∈ front, before row last := fun row listed =>
    (List.pairwise_append.mp earlier).2.2 row listed last (List.mem_singleton_self _)
  conv => lhs; rw [whole]
  rw [List.filter_append, List.filter_append]
  have none : front.filter (fun row => before last row) = [] := by
    apply List.filter_eq_nil_iff.mpr
    intro row listed after
    exact irreflexive _ (transitive (front_before row listed) (of_decide_eq_true after))
  have itself : [last].filter (fun row => before last row) = [] := by
    simp [irreflexive]
  have rest : (rows.drop count).filter (fun row => before last row) = rows.drop count := by
    apply List.filter_eq_self.mpr
    intro row listed
    exact decide_eq_true (apart last (List.mem_append_right _ (List.mem_singleton_self _)) row listed)
  rw [none, itself, rest]
  rfl

omit [DecidableRel before] in
/-- A list has one arrangement that is sorted, when it has a strict one. -/
theorem sorted_unique (irreflexive : ∀ row, ¬ before row row)
    (transitive : ∀ {first second third}, before first second → before second third →
      before first third)
    {sorted : List Row} (strict : rows.Pairwise before) (same : sorted.Perm rows)
    (ordered : sorted.Pairwise fun left right => ¬ before right left) : sorted = rows := by
  have different : rows.Pairwise fun left right => before left right ∨ before right left :=
    strict.imp .inl
  have either := (same.pairwise_iff fun apart => apart.symm).mpr different
  have sorting : sorted.Pairwise before := by
    apply (either.and ordered).imp
    rintro left right ⟨forward | backward, free⟩
    · exact forward
    · exact absurd backward free
  exact same.eq_of_pairwise (fun first _ _ _ forward backward =>
    absurd (transitive forward backward) (irreflexive first)) sorting strict

end Pages

end MeridianPostgreSQL.Keysets
