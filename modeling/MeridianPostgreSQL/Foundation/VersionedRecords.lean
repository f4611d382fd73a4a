import Mathlib.Data.Int.Order.Basic
import Mathlib.Tactic.Linarith

/-! # Versioned records

A record carries a version that advances with its contents. What an equal
version says about the contents over a whole history. -/

namespace MeridianPostgreSQL.VersionedRecords

structure Versioned (Contents : Type) where
  contents : Contents
  version : Int

variable {Contents : Type}

/-- What may happen to the record at one key: nothing, a creation at version
1, an advance, or a removal. -/
inductive Step : Option (Versioned Contents) → Option (Versioned Contents) → Prop
  | keep {record} : Step record record
  | create {contents} : Step none (some ⟨contents, 1⟩)
  | advance {record : Versioned Contents} {contents} :
      Step (some record) (some ⟨contents, record.version + 1⟩)
  | remove {record} : Step (some record) none

theorem Step.version_le {before after : Versioned Contents} (step : Step (some before) (some after)) :
    before.version ≤ after.version := by
  cases step with
  | keep => exact le_rfl
  | advance => simp

/-- A record that has its version still has its contents. -/
theorem Step.eq_of_version {before after : Versioned Contents}
    (step : Step (some before) (some after)) (same : after.version = before.version) :
    after = before := by
  cases step with
  | keep => rfl
  | advance =>
      simp only at same
      omega

/-- Contents that differ have been advanced. -/
theorem Step.advances {before after : Versioned Contents} (step : Step (some before) (some after))
    (changed : after.contents ≠ before.contents) : after.version = before.version + 1 := by
  cases step with
  | keep => exact absurd rfl changed
  | advance => rfl

/-! ## Histories -/

/-- The states of one key since a first one, the latest first, and the one it
is in now. -/
inductive Since (first : Option (Versioned Contents)) :
    List (Option (Versioned Contents)) → Option (Versioned Contents) → Prop
  | start : Since first [] first
  | step {states current next} (since : Since first states current) (step : Step current next) :
      Since first (next :: states) next

namespace Since

variable {first current : Option (Versioned Contents)}
  {states : List (Option (Versioned Contents))}

/-- A record that was never removed is still there. -/
theorem isSome (since : Since first states current) (present : first.isSome)
    (kept : none ∉ states) : current.isSome := by
  cases since with
  | start => exact present
  | step =>
      cases current with
      | none => exact absurd List.mem_cons_self kept
      | some => rfl

/-- As long as a record is not removed its version never falls, and a state
with its version is the record itself. -/
theorem version_le {record latest : Versioned Contents}
    (since : Since (some record) states (some latest)) (kept : none ∉ states) :
    record.version ≤ latest.version ∧ ∀ state ∈ states, ∃ seen, state = some seen ∧
      seen.version ≤ latest.version ∧ record.version ≤ seen.version ∧
      (seen.version = record.version → seen = record) := by
  generalize currently : some latest = current at since
  induction since generalizing latest with
  | start =>
      cases currently
      exact ⟨le_rfl, nofun⟩
  | @step states current next since step induction =>
      cases currently
      have earlier : none ∉ states := fun listed => kept (List.mem_cons_of_mem _ listed)
      rcases Option.isSome_iff_exists.mp (since.isSome rfl earlier) with ⟨before, rfl⟩
      rcases induction earlier rfl with ⟨lower, each⟩
      have advanced := step.version_le
      have last : latest.version = record.version → latest = record := by
        intro same
        have unchanged : before = record := by
          cases since with
          | start => rfl
          | step =>
              rcases each _ List.mem_cons_self with ⟨seen, equal, _, _, determined⟩
              cases equal
              exact determined (by omega)
        rw [← unchanged]
        exact step.eq_of_version (by rw [unchanged]; exact same)
      refine ⟨by omega, ?_⟩
      intro state listed
      rcases List.mem_cons.mp listed with rfl | inside
      · exact ⟨latest, rfl, le_rfl, by omega, last⟩
      · rcases each state inside with ⟨seen, equal, upper, above, determined⟩
        exact ⟨seen, equal, by omega, above, determined⟩

/-- If the version is the same again, the record never changed, unless it was
removed in between. -/
theorem unchanged {record latest : Versioned Contents}
    (since : Since (some record) states (some latest)) (kept : none ∉ states)
    (same : latest.version = record.version) : ∀ state ∈ states, state = some record := by
  intro state listed
  rcases (since.version_le kept).2 state listed with ⟨seen, equal, upper, above, determined⟩
  rw [equal, determined (by omega)]

theorem trans {middle : Option (Versioned Contents)}
    {later : List (Option (Versioned Contents))} (since : Since first states middle)
    (after : Since middle later current) : Since first (later ++ states) current := by
  induction after with
  | start => exact since
  | step _ step induction => exact .step induction step

end Since

end MeridianPostgreSQL.VersionedRecords
