import Mathlib.Data.List.Basic

/-! # Custody

Things that are lent out one after the other. Each is used, and it is given
back once its use is settled or it has been discarded. A monitor follows the
events, and a log that it accepts keeps these rules from every event on. -/

namespace MeridianPostgreSQL

universe u

/-- Things are numbered from one in the order they are lent. -/
inductive CustodyEvent (Use : Type u) where
  | lent (number : Nat)
  | used (number : Nat) (use : Use)
  | settled (number : Nat)
  | discarded (number : Nat)
  | returned (number : Nat)
deriving DecidableEq

/-- How the thing that is out stands. -/
inductive Standing where
  | active
  | settled
  | discarded
deriving DecidableEq

/-- What the monitor remembers: how many things were lent and how the last one
stands, unless it is back. -/
structure Custody where
  lent : Nat
  held : Option Standing
deriving DecidableEq

section Logs

variable {Use : Type u}

/-- What may happen next. -/
inductive CustodyStep : Custody → CustodyEvent Use → Custody → Prop
  | lent (number : Nat) :
      CustodyStep ⟨number, none⟩ (.lent (number + 1)) ⟨number + 1, some .active⟩
  | used (number : Nat) (use : Use) (standing : Standing) (kept : standing ≠ .discarded) :
      CustodyStep ⟨number, some standing⟩ (.used number use) ⟨number, some .active⟩
  | settled (number : Nat) :
      CustodyStep ⟨number, some .active⟩ (.settled number) ⟨number, some .settled⟩
  | discarded (number : Nat) (standing : Standing) :
      CustodyStep ⟨number, some standing⟩ (.discarded number) ⟨number, some .discarded⟩
  | returned (number : Nat) (standing : Standing) (ended : standing ≠ .active) :
      CustodyStep ⟨number, some standing⟩ (.returned number) ⟨number, none⟩

/-- The monitor accepts a log. -/
inductive Follows : Custody → List (CustodyEvent Use) → Prop
  | start : Follows ⟨0, none⟩ []
  | next (before after : Custody) (log : List (CustodyEvent Use)) (event : CustodyEvent Use)
      (follows : Follows before log) (step : CustodyStep before event after) :
      Follows after (log ++ [event])

/-- What a log must keep: a thing comes back at most once, right after its use
was settled or when it has been discarded, and is not used any more. -/
structure Guarded [DecidableEq Use] (log : List (CustodyEvent Use)) : Prop where
  lent : ∀ before number after, log = before ++ .returned number :: after →
    .lent number ∈ before
  once : ∀ number, log.count (.returned number) ≤ 1
  ended : ∀ before number after, log = before ++ .returned number :: after →
    .discarded number ∈ before ∨ before.getLast? = some (.settled number)
  unused : ∀ before number after, log = before ++ .returned number :: after →
    ∀ use, .used number use ∉ after

/-! ## Accepted logs -/

variable {custody : Custody} {log : List (CustodyEvent Use)}

def CustodyEvent.number : CustodyEvent Use → Nat
  | .lent number => number
  | .used number _ => number
  | .settled number => number
  | .discarded number => number
  | .returned number => number

theorem Follows.number_le (follows : Follows custody log) :
    ∀ event ∈ log, event.number ≤ custody.lent := by
  induction follows with
  | start => nofun
  | next before after log event follows step induction =>
      intro other member
      have grows : before.lent ≤ after.lent ∧ event.number ≤ after.lent := by
        cases step <;> simp [CustodyEvent.number]
      rcases List.mem_append.mp member with earlier | last
      · exact Nat.le_trans (induction other earlier) grows.1
      · exact List.mem_singleton.mp last ▸ grows.2

theorem Follows.held_lent (follows : Follows custody log)
    (held : custody.held.isSome = true) : .lent custody.lent ∈ log := by
  induction follows with
  | start => exact absurd held Bool.false_ne_true
  | next before after log event follows step induction =>
      rw [List.mem_append, List.mem_singleton]
      cases step with
      | lent number => exact .inr rfl
      | returned number standing ended => exact absurd held Bool.false_ne_true
      | _ => exact .inl (induction rfl)

/-- The thing that is out has not come back. -/
theorem Follows.held_returned (follows : Follows custody log)
    (held : custody.held.isSome = true) : .returned custody.lent ∉ log := by
  induction follows with
  | start => nofun
  | next before after log event follows step induction =>
      rw [List.mem_append, List.mem_singleton]
      cases step with
      | lent number =>
          rintro (earlier | last)
          · have bound := follows.number_le _ earlier
            exact Nat.not_succ_le_self number bound
          · exact nomatch last
      | returned number standing ended => exact absurd held Bool.false_ne_true
      | _ =>
          rintro (earlier | last)
          · exact induction rfl earlier
          · exact nomatch last

/-- How the thing that is out came to stand. -/
theorem Follows.held_standing (follows : Follows custody log) :
    (custody.held = some .settled → log.getLast? = some (.settled custody.lent)) ∧
    (custody.held = some .discarded → .discarded custody.lent ∈ log) := by
  cases follows with
  | start => exact ⟨nofun, nofun⟩
  | next before after log event follows step =>
      cases step <;> simp

/-- What was lent is out or has come back. -/
theorem Follows.returned_or_held (follows : Follows custody log) (number : Nat)
    (lent : .lent number ∈ log) :
    .returned number ∈ log ∨ (number = custody.lent ∧ custody.held.isSome = true) := by
  induction follows with
  | start => exact nomatch lent
  | next before after log event follows step induction =>
      rw [List.mem_append, List.mem_singleton] at lent ⊢
      cases step with
      | lent last =>
          rcases lent with earlier | same
          · exact .inl (.inl ((induction earlier).resolve_right fun held => nomatch held.2))
          · cases same
            exact .inr ⟨rfl, rfl⟩
      | returned last standing ended =>
          rcases lent with earlier | same
          · rcases induction earlier with back | out
            · exact .inl (.inl back)
            · exact .inl (.inr (congrArg _ out.1))
          · exact nomatch same
      | _ =>
          rcases lent with earlier | same
          · exact (induction earlier).imp .inl id
          · exact nomatch same

theorem Follows.prefix_guarded (follows : Follows custody log) :
    ∀ before number after, log = before ++ .returned number :: after →
      .lent number ∈ before ∧
      (.discarded number ∈ before ∨ before.getLast? = some (.settled number)) ∧
      ∀ use, .used number use ∉ after := by
  induction follows with
  | start => intro before number after same; simp at same
  | next earlier later log event follows step induction =>
      intro before number after same
      rcases List.eq_nil_or_concat after with rfl | ⟨rest, last, rfl⟩
      · obtain ⟨rfl, last⟩ := List.append_inj' same rfl
        cases last
        cases step with
        | returned _ standing ended =>
            refine ⟨follows.held_lent rfl, ?_, fun _ => List.not_mem_nil⟩
            cases standing with
            | active => exact absurd rfl ended
            | settled => exact .inr (follows.held_standing.1 rfl)
            | discarded => exact .inl (follows.held_standing.2 rfl)
      · have parts : log ++ [event] = (before ++ .returned number :: rest) ++ [last] := by
          rw [same, List.concat_eq_append, List.append_assoc, List.cons_append]
        obtain ⟨rfl, final⟩ := List.append_inj' parts rfl
        obtain ⟨lent, ended, unused⟩ := induction before number rest rfl
        refine ⟨lent, ended, fun use member => ?_⟩
        rcases List.mem_append.mp (List.concat_eq_append ▸ member) with earlier | used
        · exact unused use earlier
        · rw [← final, List.mem_singleton] at used
          subst used
          cases step with
          | used _ _ standing kept => exact follows.held_returned rfl (by simp)

section Counted

variable [DecidableEq Use]

theorem Follows.count_returned (follows : Follows custody log) (number : Nat) :
    log.count (.returned number) ≤ 1 := by
  induction follows with
  | start => exact Nat.zero_le 1
  | next before after log event follows step induction =>
      rw [List.count_append]
      cases step with
      | returned last standing ended =>
          have out : .returned last ∉ log := follows.held_returned rfl
          rw [List.count_singleton]
          by_cases same : last = number
          · subst same
            rw [List.count_eq_zero_of_not_mem out]
            simp
          · simp [same, induction]
      | _ => simpa using induction

/-- An accepted log keeps the rules. -/
theorem Follows.guarded (follows : Follows custody log) : Guarded log where
  lent before number after same := (follows.prefix_guarded before number after same).1
  once := follows.count_returned
  ended before number after same := (follows.prefix_guarded before number after same).2.1
  unused before number after same := (follows.prefix_guarded before number after same).2.2

/-- Once nothing is out, everything has come back exactly once. -/
theorem Follows.all_returned (follows : Follows custody log) (idle : custody.held = none)
    (number : Nat) (lent : .lent number ∈ log) : log.count (.returned number) = 1 := by
  have back : .returned number ∈ log :=
    (follows.returned_or_held number lent).resolve_right fun held => by simp [idle] at held
  exact Nat.le_antisymm (follows.count_returned number) (List.count_pos_iff.mpr back)

end Counted

end Logs

end MeridianPostgreSQL
