import MeridianPostgreSQL.Foundation.GuardedRows
import MeridianPostgreSQL.Projection.OutboxAtomicity

/-! # State rows under the lock of their intent

Every transaction writes the state row of an event under the lock of its
intent, so a release compares the attempt that it ends with the threshold. -/

namespace MeridianPostgreSQL.Projection

open ReadCommitted

variable {EventId : Type}

/-- A state row is written under the lock of its intent. -/
def intentGuard : OutboxKey EventId → Option (OutboxKey EventId)
  | .state key event => some (.intent key.scope key.resource event)
  | .intent _ _ _ => none
  | .checkpoint _ _ => none

/-- A release leaves an event to be retried only below its threshold. -/
def Outcome.RetriesBelow (outcome : Outcome EventId) : Prop :=
  ∀ release, outcome = .released release →
    (∃ failure, release.row.state = .retryable failure) →
    release.row.attempt < release.outbox.poisonThreshold

variable [LinearOrder EventId]

/-- The outbox contract, with the attempts a release compares. -/
def retryContract (released : ReleasedOutboxData EventId) (allowed : Outbox → Prop) :
    Contract (OutboxRow EventId) (Outcome EventId) where
  Invariant := fun _ => True
  Effect := fun committed outcome rows =>
    (outboxContract released allowed).Effect committed outcome rows ∧
      outcome.RetriesBelow
  preserved := fun _ _ => trivial

variable {released : ReleasedOutboxData EventId} {allowed : Outbox → Prop}
  {workspace : Workspace (OutboxRow EventId)}
  {committed later : Committed (OutboxRow EventId) (Outcome EventId)}

theorem retryContract_refines :
    (retryContract released allowed).Refines (outboxContract released allowed) where
  invariant := id
  effect := And.left

/-! ## What the lock of an intent keeps -/

theorem state_of_shielded {locks : Set (OutboxKey EventId)}
    (interferes : (retryContract released allowed).Interferes
      (shielded intentGuard locks) committed later)
    (key : ProjectionKey) (event : EventId)
    (locked : .intent key.scope key.resource event ∈ locks) :
    OutboxStore.state later.rows key event =
      OutboxStore.state committed.rows key event :=
  interferes.row_eq (mem_shielded rfl locked)

theorem relies_currentTime (now : Option CallerClock)
    {post : Int → Workspace (OutboxRow EventId) →
      Committed (OutboxRow EventId) (Outcome EventId) → Prop}
    (holds : ∀ reading, post reading workspace committed) :
    (retryContract released allowed).Relies intentGuard (currentTime now) post workspace
      committed := by
  cases now with
  | none => exact holds
  | some caller =>
      simp only [currentTime]
      split
      · exact holds _
      · trivial

theorem relies_finalTime (now : Option CallerClock)
    {post : Int → Workspace (OutboxRow EventId) →
      Committed (OutboxRow EventId) (Outcome EventId) → Prop}
    (holds : ∀ reading, post reading workspace committed) :
    (retryContract released allowed).Relies intentGuard (finalTime now) post workspace
      committed := by
  cases now with
  | none => exact holds
  | some caller => exact holds _

/-- The intent is locked, and the joined state is the committed one. -/
structure Held (outbox : Outbox) (event : EventId) (state : Option StateRow)
    (workspace : Workspace (OutboxRow EventId))
    (committed : Committed (OutboxRow EventId) (Outcome EventId)) : Prop where
  unwritten : workspace.Unwritten
  locked : .intent outbox.key.scope outbox.key.resource event ∈ workspace.locks
  current : ∀ row, state = some row →
    OutboxStore.state committed.rows outbox.key event = some row

theorem advanced_of_shielded {locks : Set (OutboxKey EventId)}
    (interferes : (retryContract released allowed).Interferes locks committed later) :
    Advanced committed.rows later.rows :=
  advanced_of_interferes (interferes.weaken retryContract_refines)

theorem relies_load (outbox : Outbox) (event : EventId)
    (unwritten : workspace.Unwritten) :
    (retryContract released allowed).Relies intentGuard (outbox.load event)
      (fun loaded => Held outbox event loaded.2) workspace committed := by
  unfold Outbox.load
  rw [Contract.relies_bind, Contract.relies_select]
  intro first toFirst _
  rw [unwritten.overlay]
  split
  · exact Contract.relies_fail
  · rw [Contract.relies_bind, Contract.relies_selectForUpdate, unwritten.overlay]
    dsimp only
    intro second toSecond _
    cases found : first.rows (.intent outbox.scope outbox.resource event) with
    | none => exact Contract.relies_fail
    | some row =>
        rcases row with ⟨data, rfl⟩
        dsimp only
        split
        · rw [Contract.relies_bind, Contract.relies_select]
          intro third toThird _
          rw [Contract.relies_pure, (unwritten.lockRow _ _).overlay]
          have locked : OutboxKey.intent outbox.key.scope outbox.key.resource
              data.eventId ∈ insert (OutboxKey.intent outbox.scope outbox.resource
                data.eventId) workspace.locks := Set.mem_insert _ _
          have advanced := (advanced_of_shielded toFirst).trans
            (advanced_of_shielded toSecond)
          refine ⟨unwritten.lockRow _ _, locked, fun saved joined => ?_⟩
          rw [state_of_shielded toThird _ _ locked]
          -- State rows are never deleted, so the older snapshot adds none.
          cases state : OutboxStore.state second.rows outbox.key data.eventId with
          | none =>
              have absent : OutboxStore.state committed.rows outbox.key data.eventId =
                  none := by
                by_contra present
                exact advanced.started present state
              simp [Outbox.joined, state, absent] at joined
          | some current =>
              simpa [Outbox.joined, state] using joined
        · exact Contract.relies_fail

theorem relies_leased (outbox : Outbox) (event : EventId) (owner : String)
    (now : Option CallerClock) (unwritten : workspace.Unwritten) :
    (retryContract released allowed).Relies intentGuard (outbox.leased event owner now)
      (fun loaded => Held outbox event (some loaded.2.1)) workspace committed := by
  unfold Outbox.leased
  rw [Contract.relies_bind]
  refine (relies_load outbox event unwritten).mono ?_
  rintro ⟨data, state⟩ workspace committed held
  rw [Contract.relies_bind]
  refine relies_currentTime now fun reading => ?_
  cases state with
  | none => exact Contract.relies_fail
  | some row =>
      dsimp only
      split
      · exact Contract.relies_fail
      · exact held

/-! ## Programs keep guards and thresholds -/

/-- What a program adds to the atomic effect it commits. -/
def Guarding (result : Outcome EventId) (workspace : Workspace (OutboxRow EventId))
    (_ : Committed (OutboxRow EventId) (Outcome EventId)) : Prop :=
  workspace.Guarded intentGuard ∧ result.RetriesBelow

theorem Held.record {outbox : Outbox} {event : EventId} {state : Option StateRow}
    (held : Held outbox event state workspace committed) (change : Change StateRow) :
    (workspace.record (.state outbox.key event) change).Guarded intentGuard := by
  apply held.unwritten.guarded.record
  rintro _ ⟨⟩
  exact held.locked

theorem relies_release (outbox : Outbox) (event : EventId) (owner : String)
    (code : String) (retryable : Bool) (now : Option CallerClock) :
    (retryContract released allowed).Relies intentGuard
      (outbox.release event owner code retryable now) Guarding .fresh committed := by
  unfold Outbox.release
  rw [Contract.relies_bind]
  refine (relies_leased outbox event owner now Workspace.fresh_unwritten).mono ?_
  rintro ⟨data, row, current⟩ workspace loaded held
  rw [Contract.relies_bind]
  refine relies_finalTime now fun reading => ?_
  rw [Contract.relies_bind, Contract.relies_write, held.unwritten.overlay]
  dsimp only
  generalize finish : finishLease _ _ _ _ = changed
  intro final _ _
  cases changed with
  | keep | delete => exact Contract.relies_fail
  | put saved =>
      refine ⟨held.record _, ?_⟩
      rintro release ⟨⟩ ⟨failure, retried⟩
      have found := held.current row rfl
      rw [OutboxStore.state] at found
      rcases finishLease_put finish with ⟨stored, lease, same, _, _, _, rfl⟩
      cases found.symm.trans same
      dsimp only at retried ⊢
      split at retried
      · rename_i below
        exact of_decide_eq_true (Bool.and_eq_true_iff.mp below).2
      · cases retried

theorem relies_complete (outbox : Outbox) (event : EventId) (owner : String)
    (acknowledged : Json) (targetFingerprint : String) (now : Option CallerClock) :
    (retryContract released allowed).Relies intentGuard
      (outbox.complete released event owner acknowledged targetFingerprint now) Guarding
      .fresh committed := by
  unfold Outbox.complete
  split
  · exact Contract.relies_fail
  rw [Contract.relies_bind]
  refine (relies_leased outbox event owner now Workspace.fresh_unwritten).mono ?_
  rintro ⟨data, row, current⟩ workspace loaded held
  dsimp only
  split
  · exact Contract.relies_fail
  rw [Contract.relies_bind, Contract.relies_select]
  intro read _ _
  rw [Contract.relies_bind, Contract.relies_write]
  dsimp only
  generalize advanceCheckpoint _ _ _ = made
  intro saved _ _
  have guarded : (workspace.record
      (.checkpoint outbox.key (released.partitionKey data)) made).Guarded intentGuard := by
    apply held.unwritten.guarded.record
    exact fun _ absent => by cases absent
  cases made with
  | keep | delete => exact Contract.relies_fail
  | put checkpoint =>
      dsimp only
      rw [Contract.relies_bind]
      refine relies_finalTime now fun reading => ?_
      rw [Contract.relies_bind, Contract.relies_write]
      dsimp only
      generalize finishLease _ _ _ _ = changed
      intro final _ _
      cases changed with
      | keep | delete => exact Contract.relies_fail
      | put row =>
          refine ⟨guarded.record _ ?_ _, fun release absent => by cases absent⟩
          rintro _ ⟨⟩
          exact Set.mem_insert_of_mem _ held.locked

theorem relies_insertIntents (intents : List (ScopeKey × String × OutboxData EventId))
    (guarded : workspace.Guarded intentGuard) :
    (retryContract released allowed).Relies intentGuard (insertIntents intents) Guarding
      workspace committed := by
  induction intents generalizing workspace committed with
  | nil => exact ⟨guarded, fun release absent => by cases absent⟩
  | cons head rest induction =>
      rcases head with ⟨scope, resource, data⟩
      unfold insertIntents
      rw [Contract.relies_bind, Contract.relies_write]
      dsimp only
      intro later _ _
      split
      · apply induction
        apply guarded.record
        exact fun _ absent => by cases absent
      · exact Contract.relies_fail

/-! ## Claims -/

/-- The intents of the batch are locked. -/
def Batched (outbox : Outbox) (rows : List (OutboxData EventId))
    (workspace : Workspace (OutboxRow EventId)) : Prop :=
  ∀ data ∈ rows, .intent outbox.scope outbox.resource data.eventId ∈ workspace.locks

theorem relies_lockBatch (outbox : Outbox) (batch : List (OutboxData EventId))
    (limit : Nat) (unwritten : workspace.Unwritten) :
    (retryContract released allowed).Relies intentGuard (outbox.lockBatch batch limit)
      (fun rows after _ => Batched outbox rows after ∧ after.Unwritten ∧
        workspace.locks ⊆ after.locks) workspace committed := by
  induction batch generalizing limit workspace committed with
  | nil =>
      unfold Outbox.lockBatch
      exact ⟨fun data absent => (by cases absent), unwritten, subset_rfl⟩
  | cons data rest induction =>
      cases limit with
      | zero =>
          unfold Outbox.lockBatch
          exact ⟨fun data absent => (by cases absent), unwritten, subset_rfl⟩
      | succ limit =>
          unfold Outbox.lockBatch
          rw [Contract.relies_bind, Contract.relies_skipLocked]
          refine ⟨fun later _ _ => ?_, fun later _ _ => ?_⟩
          · exact induction (limit + 1) unwritten
          · rw [if_pos rfl, Contract.relies_bind]
            refine (induction limit (unwritten.lock _)).mono ?_
            rintro rows after final ⟨batched, clean, grown⟩
            refine ⟨?_, clean, (Set.subset_insert _ _).trans grown⟩
            intro other member
            rcases List.mem_cons.mp member with rfl | member
            · exact grown (Set.mem_insert _ _)
            · exact batched other member

theorem relies_leaseRows (outbox : Outbox) (owner : String) (duration : Int)
    (positive : 0 < duration) (now : Option CallerClock)
    (rows : List (OutboxData EventId)) (bytes : Nat)
    (batched : Batched outbox rows workspace) (guarded : workspace.Guarded intentGuard) :
    (retryContract released allowed).Relies intentGuard
      (outbox.leaseRows released owner duration positive now rows bytes)
      (fun _ after _ => after.Guarded intentGuard) workspace committed := by
  induction rows generalizing bytes workspace committed with
  | nil =>
      unfold Outbox.leaseRows
      exact guarded
  | cons data rest induction =>
      unfold Outbox.leaseRows
      dsimp only
      split
      · exact Contract.relies_fail
      rw [Contract.relies_bind]
      refine relies_currentTime now fun current => ?_
      rw [Contract.relies_bind, Contract.relies_write]
      dsimp only
      generalize leaseRow _ _ = acquired
      intro later _ _
      rw [Contract.relies_bind]
      have recorded : (workspace.record (.state outbox.key data.eventId)
          acquired).Guarded intentGuard := by
        apply guarded.record
        rintro _ ⟨⟩
        exact batched data (.head _)
      have kept : Batched outbox rest
          (workspace.record (.state outbox.key data.eventId) acquired) := by
        intro other member
        have locked := batched other (.tail _ member)
        cases acquired with
        | keep => exact locked
        | put | delete => exact Set.mem_insert_of_mem _ locked
      refine (induction _ kept recorded).mono ?_
      intro grants after final finished
      cases acquired <;> exact finished

theorem relies_claim (outbox : Outbox) (owner : String) (limit duration : Int)
    (now : Option CallerClock) :
    (retryContract released allowed).Relies intentGuard
      (outbox.atomicClaim released owner limit duration now) Guarding .fresh committed := by
  unfold Outbox.atomicClaim
  split
  · exact Contract.relies_fail
  split
  · exact Contract.relies_fail
  split
  · rw [Contract.relies_bind]
    refine relies_currentTime now fun current => ?_
    rw [Contract.relies_bind, Contract.relies_selectKeys]
    intro keys _ _ selected _ _
    dsimp only
    rw [Contract.relies_bind]
    refine (relies_lockBatch outbox _ _ Workspace.fresh_unwritten).mono ?_
    rintro rows workspace locked ⟨batched, unwritten, _⟩
    rw [Contract.relies_bind]
    refine (relies_leaseRows outbox owner duration (by assumption) now rows 0 batched
      unwritten.guarded).mono ?_
    exact fun grants after final guarded => ⟨guarded, fun release absent => by cases absent⟩
  · exact Contract.relies_fail

theorem program_certified_guarded (call : OutboxCall EventId)
    (within : call.Within allowed) :
    (retryContract released allowed).CertifiesGuarded intentGuard
      (call.program released) := by
  intro committed _
  have atomic : (retryContract released allowed).Relies intentGuard (call.program released)
      (outboxContract released allowed).Commits .fresh committed :=
    (program_certified call within committed trivial).relies retryContract_refines
  have guarding : (retryContract released allowed).Relies intentGuard
      (call.program released) Guarding .fresh committed := by
    cases call with
    | insert intents => exact relies_insertIntents intents Workspace.fresh_unwritten.guarded
    | atomicClaim outbox owner limit duration now =>
        exact relies_claim outbox owner limit duration now
    | complete outbox event owner acknowledged targetFingerprint now =>
        exact relies_complete outbox event owner acknowledged targetFingerprint now
    | release outbox event owner code retryable now =>
        exact relies_release outbox event owner code retryable now
  exact atomic.and guarding fun _ _ _ commits adds => ⟨⟨commits, adds.2⟩, adds.1⟩

end MeridianPostgreSQL.Projection
