import Mathlib.Data.List.Basic

/-! # Guarded logs

Logs in which every event was allowed by the events before it. -/

namespace MeridianPostgreSQL

universe u

variable {Event : Type u}

/-- Every event was allowed by the events before it. -/
inductive GuardedLog (allowed : List Event → Event → Prop) : List Event → Prop
  | nil : GuardedLog allowed []
  | next (log : List Event) (event : Event) (guarded : GuardedLog allowed log)
      (may : allowed log event) : GuardedLog allowed (log ++ [event])

section Guarded

variable {allowed : List Event → Event → Prop} {log : List Event}

theorem GuardedLog.allowed_at (guarded : GuardedLog allowed log) :
    ∀ before event after, log = before ++ event :: after → allowed before event := by
  induction guarded with
  | nil =>
      intro before event after same
      simp at same
  | next log last guarded may induction =>
      intro before event after same
      rcases List.eq_nil_or_concat after with rfl | ⟨rest, final, rfl⟩
      · obtain ⟨rfl, ends⟩ := List.append_inj' same rfl
        cases ends
        exact may
      · have parts : log ++ [last] = (before ++ event :: rest) ++ [final] := by
          rw [same, List.concat_eq_append, List.append_assoc, List.cons_append]
        obtain ⟨rfl, _⟩ := List.append_inj' parts rfl
        exact induction before event rest rfl

/-- Events that are allowed at any time. -/
theorem GuardedLog.append_free (guarded : GuardedLog allowed log) {more : List Event}
    (free : ∀ event ∈ more, ∀ before, allowed before event) :
    GuardedLog allowed (log ++ more) := by
  induction more generalizing log with
  | nil => exact (List.append_nil log).symm ▸ guarded
  | cons event rest induction =>
      have first := GuardedLog.next log event guarded (free event List.mem_cons_self log)
      have all := induction first fun other later => free other (List.mem_cons_of_mem event later)
      rwa [List.append_assoc] at all

/-- What was allowed stays allowed after earlier events. -/
theorem GuardedLog.prepend {earlier : List Event} (guarded : GuardedLog allowed log)
    (free : ∀ event ∈ earlier, ∀ before, allowed before event)
    (later : ∀ before event, allowed before event → allowed (earlier ++ before) event) :
    GuardedLog allowed (earlier ++ log) := by
  induction guarded with
  | nil =>
      rw [List.append_nil]
      exact GuardedLog.nil.append_free free
  | next log event guarded may induction =>
      rw [← List.append_assoc]
      exact .next _ event induction (later log event may)

end Guarded

end MeridianPostgreSQL

