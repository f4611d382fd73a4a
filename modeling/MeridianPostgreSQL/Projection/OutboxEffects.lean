import Mathlib.Data.List.Nodup
import MeridianPostgreSQL.Foundation.TransactionSoundness
import MeridianPostgreSQL.Projection.Outbox

/-! # Outbox transactions as atomic effects

The abstract outbox is one machine that inserts intents, grants leases,
completes events and releases them, each in one atomic effect. Every
transaction of the port commits such an effect, whatever other transactions
commit between its statements. -/

namespace MeridianPostgreSQL.Projection

open ReadCommitted

variable {EventId : Type}

/-! ## Intents in view -/

/-- The intent is stored in the outbox and matches the projection. -/
structure Matching (key : ProjectionKey) (spec : ProjectionSpec)
    (store : OutboxStore EventId) (data : OutboxData EventId) : Prop where
  stored : store.data key.scope key.resource data.eventId = some data
  selected : spec.selects data = true

theorem Matching.unique {key : ProjectionKey} {spec : ProjectionSpec}
    {store : OutboxStore EventId} {left right : OutboxData EventId}
    (first : Matching key spec store left) (second : Matching key spec store right)
    (same : left.eventId = right.eventId) : left = right := by
  have stored := first.stored
  rw [same] at stored
  exact Option.some.inj (stored.symm.trans second.stored)

abbrev Outbox.Visible (outbox : Outbox) (store : OutboxStore EventId)
    (data : OutboxData EventId) : Prop :=
  Matching outbox.key outbox.spec store data

/-- The first event of its identity that the projection has not completed. -/
structure Outbox.LeastIncomplete [LinearOrder EventId] (outbox : Outbox)
    (store : OutboxStore EventId) (data : OutboxData EventId) : Prop where
  visible : outbox.Visible store data
  unfinished : incomplete (outbox.joined store data.eventId) = true
  least : ∀ {other}, outbox.Visible store other → SameIdentity other data →
    incomplete (outbox.joined store other.eventId) = true →
    other = data ∨ Earlier data other

theorem Outbox.LeastIncomplete.unique [LinearOrder EventId] {outbox : Outbox}
    {store : OutboxStore EventId} {left right : OutboxData EventId}
    (first : outbox.LeastIncomplete store left)
    (second : outbox.LeastIncomplete store right)
    (same : SameIdentity left right) : left = right := by
  rcases second.least first.visible same first.unfinished with equal | after
  · exact equal
  · rcases first.least second.visible same.symm second.unfinished with
      equal | before
    · exact equal.symm
    · exact absurd (after.trans before) (Earlier.irrefl right)

/-! ## Progress -/

/-- Intents stay as inserted, ended events stay ended, and rows that exist
stay in existence. -/
structure Advanced (before after : OutboxStore EventId) : Prop where
  intents : ∀ {scope resource event data},
    before.data scope resource event = some data →
    after.data scope resource event = some data
  ended : ∀ {key event row}, before.state key event = some row →
    row.Completed ∨ row.Quarantined → after.state key event = some row
  started : ∀ {key event}, before.state key event ≠ none →
    after.state key event ≠ none
  checkpoints : ∀ {key partition}, before.checkpoint key partition ≠ none →
    after.checkpoint key partition ≠ none

theorem Advanced.refl (store : OutboxStore EventId) : Advanced store store where
  intents := id
  ended := fun found _ => found
  started := id
  checkpoints := id

theorem Advanced.trans {first second third : OutboxStore EventId}
    (left : Advanced first second) (right : Advanced second third) :
    Advanced first third where
  intents := fun found => right.intents (left.intents found)
  ended := fun found final => right.ended (left.ended found final) final
  started := fun found => right.started (left.started found)
  checkpoints := fun found => right.checkpoints (left.checkpoints found)

theorem Matching.advanced {key : ProjectionKey} {spec : ProjectionSpec}
    {before after : OutboxStore EventId} {data : OutboxData EventId}
    (holds : Matching key spec before data) (advanced : Advanced before after) :
    Matching key spec after data :=
  ⟨advanced.intents holds.stored, holds.selected⟩

/-! ## Effects -/

/-- New intents, and nothing else. -/
structure InsertEffect (before after : OutboxStore EventId) : Prop where
  intents : ∀ {scope resource event data},
    before.data scope resource event = some data →
    after.data scope resource event = some data
  states : ∀ key event, after.state key event = before.state key event
  checkpoints : ∀ key partition,
    after.checkpoint key partition = before.checkpoint key partition

section Claims

variable [LinearOrder EventId]

/-- One lease of a claim, taken from the row committed before it. -/
structure Claim.Granted (claim : Claim EventId) (before after : OutboxStore EventId)
    (grant : Grant EventId) : Prop where
  first : claim.outbox.LeastIncomplete claim.snapshot grant.data
  taken : ∃ lease : Lease, lease.owner = claim.owner ∧
    (∀ reading, claim.now = some reading → lease.acquiredAt = reading.instant) ∧
    leaseRow lease (before.state claim.outbox.key grant.data.eventId) =
      .put grant.row
  stored : after.state claim.outbox.key grant.data.eventId = some grant.row

/-- The leases of one claim, and nothing else. -/
structure ClaimEffect (claim : Claim EventId) (before after : OutboxStore EventId) :
    Prop where
  observed : Advanced claim.snapshot before
  distinct : (claim.grants.map fun grant => grant.data.eventId).Nodup
  granted : ∀ grant ∈ claim.grants, claim.Granted before after grant
  untouched : ∀ key, (∀ grant ∈ claim.grants,
    key ≠ .state claim.outbox.key grant.data.eventId) → after key = before key

end Claims

/-- A held lease ends in `state`. -/
def Ended (outbox : Outbox) (owner : String) (now : Option CallerClock)
    (reading : Int) (state : OutboxState) (event : EventId)
    (before : OutboxStore EventId) (row : StateRow) : Prop :=
  (∀ caller, now = some caller → reading = caller.instant) ∧
    finishLease owner reading state (before.state outbox.key event) = .put row

section Effects

variable [DecidableEq EventId]

/-- One completed event and the checkpoint that counts it, and nothing else. -/
structure CompletionEffect (released : ReleasedOutboxData EventId)
    (completion : Completion EventId) (before after : OutboxStore EventId) :
    Prop where
  loaded : completion.outbox.Visible before completion.data
  partition : completion.partition = released.partitionKey completion.data
  revision : completion.checkpoint.revision = checkpointRevision
    (before.checkpoint completion.outbox.key completion.partition) + 1
  event : completion.checkpoint.eventId = completion.data.eventId
  version : completion.checkpoint.sourceVersion = completion.data.sourceVersion
  stored : ∃ row, Ended completion.outbox completion.owner completion.now
      completion.finalReading
      (.completed completion.checkpoint.targetFingerprint
        completion.checkpoint.advancedAt)
      completion.data.eventId before row ∧
    after = (before.setCheckpoint completion.outbox.key completion.partition
      completion.checkpoint).setState completion.outbox.key
      completion.data.eventId row

/-- One released event, and nothing else. -/
structure ReleaseEffect (release : Release EventId)
    (before after : OutboxStore EventId) : Prop where
  loaded : release.outbox.Visible before release.data
  stored : ∃ failure state,
    (state = .retryable failure ∨ state = .quarantined failure) ∧
    Ended release.outbox release.owner release.now release.finalReading state
      release.data.eventId before release.row ∧
    after = before.setState release.outbox.key release.data.eventId release.row

end Effects

/-- What one outbox transaction may do, as one step. -/
inductive Effect [LinearOrder EventId] (released : ReleasedOutboxData EventId)
    (before : OutboxStore EventId) :
    Outcome EventId → OutboxStore EventId → Prop
  | inserted (after) (effect : InsertEffect before after) :
      Effect released before .inserted after
  | claimed (claim after) (effect : ClaimEffect claim before after) :
      Effect released before (.claimed claim) after
  | completed (completion after)
      (effect : CompletionEffect released completion before after) :
      Effect released before (.completed completion) after
  | released (release after) (effect : ReleaseEffect release before after) :
      Effect released before (.released release) after

/-! ## The lease state machine of one event -/

theorem leaseRow_ne_delete (lease : Lease) (row : Option StateRow) :
    leaseRow lease row ≠ .delete := by
  unfold leaseRow
  repeat' split
  all_goals simp

/-- A lease is taken from a claimable row and counts one more attempt. -/
theorem leaseRow_put {lease : Lease} {row : Option StateRow} {saved : StateRow}
    (taken : leaseRow lease row = .put saved) :
    claimable row lease.acquiredAt = true ∧ saved.state = .leased lease ∧
      saved.attempt = (row.map StateRow.attempt).getD 0 + 1 := by
  cases row with
  | none =>
      cases taken
      exact ⟨rfl, rfl, rfl⟩
  | some row =>
      cases state : row.state with
      | retryable failure =>
          simp only [leaseRow, state] at taken
          cases taken
          exact ⟨by simp [claimable, state], rfl, rfl⟩
      | leased held =>
          simp only [leaseRow, state] at taken
          split at taken
          · rename_i expired
            cases taken
            exact ⟨by simpa [claimable, state] using expired, rfl, rfl⟩
          · exact nomatch taken
      | completed | quarantined =>
          simp only [leaseRow, state] at taken
          exact nomatch taken

/-- A lease is ended by its owner while it is live. -/
theorem finishLease_put {owner : String} {reading : Int} {state : OutboxState}
    {row : Option StateRow} {saved : StateRow}
    (finished : finishLease owner reading state row = .put saved) :
    ∃ held lease, row = some held ∧ held.state = .leased lease ∧
      lease.owner = owner ∧ reading < lease.expiresAt ∧
      saved = { held with state := state } := by
  cases row with
  | none => exact nomatch finished
  | some held =>
      cases current : held.state with
      | leased lease =>
          simp only [finishLease, current] at finished
          split at finished
          · rename_i live
            cases finished
            exact ⟨held, lease, rfl, current, live.1, live.2, rfl⟩
          · exact nomatch finished
      | completed | retryable | quarantined =>
          simp only [finishLease, current] at finished
          exact nomatch finished

theorem advanceCheckpoint_put {previous : Nat} {saved made : CheckpointRow EventId}
    {row : Option (CheckpointRow EventId)}
    (advanced : advanceCheckpoint previous saved row = .put made) :
    made = saved ∧ (row = none ∨ checkpointRevision row = previous) := by
  cases row with
  | none =>
      cases advanced
      exact ⟨rfl, .inl rfl⟩
  | some row =>
      simp only [advanceCheckpoint] at advanced
      split at advanced
      · rename_i equal
        cases advanced
        exact ⟨rfl, .inr equal⟩
      · exact nomatch advanced

/-- The attempts made so far. An event without a state row has had none. -/
def attempts (row : Option StateRow) : Nat := (row.map StateRow.attempt).getD 0

/-- A free event is leased. -/
structure Opens (owner : String) (now : Option CallerClock)
    (before after : Option StateRow) (lease : Lease) : Prop where
  owned : lease.owner = owner
  supplied : ∀ reading, now = some reading → lease.acquiredAt = reading.instant
  free : claimable before lease.acquiredAt = true
  leased : ∃ row, after = some row ∧ row.state = .leased lease ∧
    row.attempt = attempts before + 1

/-- The owner of a live lease ends it in `state`. -/
structure Closes (owner : String) (now : Option CallerClock) (reading : Int)
    (state : OutboxState) (before after : Option StateRow) : Prop where
  supplied : ∀ caller, now = some caller → reading = caller.instant
  held : ∃ row lease, before = some row ∧ row.state = .leased lease ∧
    lease.owner = owner ∧ reading < lease.expiresAt ∧
    after = some { row with state := state }

/-- The outcome leases, completes or releases the event. -/
def Outcome.Concerns (outcome : Outcome EventId) (key : ProjectionKey)
    (event : EventId) : Prop :=
  match outcome with
  | .inserted => False
  | .claimed claim => claim.outbox.key = key ∧
      ∃ grant ∈ claim.grants, grant.data.eventId = event
  | .completed completion =>
      completion.outbox.key = key ∧ completion.data.eventId = event
  | .released release => release.outbox.key = key ∧ release.data.eventId = event

/-- The completion that a partition counts, if the outcome is one. -/
def Outcome.counted? (outcome : Outcome EventId) (key : ProjectionKey)
    (partition : String) : Option (Completion EventId) :=
  match outcome with
  | .completed completion =>
      if completion.outbox.key = key ∧ completion.partition = partition then
        some completion
      else none
  | _ => none

/-- How an outcome moves the state row of one event. -/
inductive Move (key : ProjectionKey) (event : EventId) :
    Outcome EventId → Option StateRow → Option StateRow → Prop
  | kept (outcome row) (unconcerned : ¬ outcome.Concerns key event) :
      Move key event outcome row row
  | leased (claim : Claim EventId) (grant : Grant EventId) (lease before after)
      (projection : claim.outbox.key = key) (member : grant ∈ claim.grants)
      (identified : grant.data.eventId = event) (saved : after = some grant.row)
      (opens : Opens claim.owner claim.now before after lease) :
      Move key event (.claimed claim) before after
  | completed (completion : Completion EventId) (before after)
      (projection : completion.outbox.key = key)
      (identified : completion.data.eventId = event)
      (closes : Closes completion.owner completion.now completion.finalReading
        (.completed completion.checkpoint.targetFingerprint
          completion.checkpoint.advancedAt) before after) :
      Move key event (.completed completion) before after
  | released (release : Release EventId) (state before after)
      (projection : release.outbox.key = key)
      (identified : release.data.eventId = event) (saved : after = some release.row)
      (failed : (∃ failure, state = .retryable failure) ∨
        ∃ failure, state = .quarantined failure)
      (closes : Closes release.owner release.now release.finalReading state
        before after) :
      Move key event (.released release) before after

theorem Ended.closes {outbox : Outbox} {owner : String} {now : Option CallerClock}
    {reading : Int} {state : OutboxState} {event : EventId}
    {before : OutboxStore EventId} {row : StateRow}
    (ended : Ended outbox owner now reading state event before row) :
    Closes owner now reading state (before.state outbox.key event) (some row) := by
  rcases finishLease_put ended.2 with
    ⟨held, lease, found, leased, owned, live, rfl⟩
  exact ⟨ended.1, held, lease, found, leased, owned, live, rfl⟩

section Order

variable [LinearOrder EventId] {released : ReleasedOutboxData EventId}
  {before after : OutboxStore EventId} {outcome : Outcome EventId}

theorem Claim.Granted.opens {claim : Claim EventId} {grant : Grant EventId}
    (granted : claim.Granted before after grant) :
    ∃ lease, Opens claim.owner claim.now
      (before.state claim.outbox.key grant.data.eventId) (some grant.row)
      lease := by
  rcases granted.taken with ⟨lease, owned, supplied, taken⟩
  rcases leaseRow_put taken with ⟨free, leased, attempt⟩
  exact ⟨lease, owned, supplied, free, grant.row, rfl, leased, attempt⟩

theorem ClaimEffect.move {claim : Claim EventId}
    (effect : ClaimEffect claim before after) (key : ProjectionKey)
    (event : EventId) :
    Move key event (.claimed claim) (before.state key event)
      (after.state key event) := by
  by_cases leased : (Outcome.claimed claim).Concerns key event
  · rcases leased with ⟨rfl, grant, member, rfl⟩
    have granted := effect.granted grant member
    rcases granted.opens with ⟨lease, opens⟩
    rw [granted.stored]
    exact .leased claim grant lease _ _ rfl member rfl rfl opens
  · have same : after.state key event = before.state key event := by
      apply effect.untouched
      rintro grant member equal
      cases equal
      exact leased ⟨rfl, grant, member, rfl⟩
    rw [same]
    exact .kept _ _ leased

/-- Every effect moves every state row as the machine allows. -/
theorem Effect.move (effect : Effect released before outcome after)
    (key : ProjectionKey) (event : EventId) :
    Move key event outcome (before.state key event) (after.state key event) := by
  cases effect with
  | inserted after effect =>
      rw [effect.states]
      exact .kept _ _ id
  | claimed claim after effect => exact effect.move key event
  | completed completion after effect =>
      rcases effect.stored with ⟨row, ended, rfl⟩
      by_cases same : completion.outbox.key = key ∧ completion.data.eventId = event
      · rcases same with ⟨rfl, rfl⟩
        rw [OutboxStore.state_setState_self]
        exact .completed completion _ _ rfl rfl ended.closes
      · rw [OutboxStore.state_setState_of_ne _ _ _ _ same,
          OutboxStore.state_setCheckpoint]
        exact .kept _ _ same
  | released release after effect =>
      rcases effect.stored with ⟨failure, state, failed, ended, rfl⟩
      by_cases same : release.outbox.key = key ∧ release.data.eventId = event
      · rcases same with ⟨rfl, rfl⟩
        rw [OutboxStore.state_setState_self]
        exact .released release state _ _ rfl rfl rfl
          (failed.imp (fun equal => ⟨failure, equal⟩) fun equal => ⟨failure, equal⟩)
          ended.closes
      · rw [OutboxStore.state_setState_of_ne _ _ _ _ same]
        exact .kept _ _ same

end Order

/-! ## Effects only advance -/

theorem StateRow.not_claimable {row : StateRow} {current : Int}
    (ended : row.Completed ∨ row.Quarantined) :
    claimable (some row) current = false := by
  rcases ended with ⟨fingerprint, time, state⟩ | ⟨failure, state⟩ <;>
    simp [claimable, state]

theorem StateRow.not_leased {row : StateRow} {lease : Lease}
    (ended : row.Completed ∨ row.Quarantined) : row.state ≠ .leased lease := by
  rcases ended with ⟨fingerprint, time, state⟩ | ⟨failure, state⟩ <;> simp [state]

theorem Move.ended {key : ProjectionKey} {event : EventId}
    {outcome : Outcome EventId} {before after : Option StateRow} {row : StateRow}
    (move : Move key event outcome before after) (found : before = some row)
    (ended : row.Completed ∨ row.Quarantined) : after = some row := by
  cases move with
  | kept => exact found
  | leased claim grant lease before after projection member identified saved opens =>
      have free := opens.free
      rw [found, StateRow.not_claimable ended] at free
      exact nomatch free
  | completed completion before after projection identified closes =>
      rcases closes.held with ⟨held, lease, equal, leased, _⟩
      cases equal.symm.trans found
      exact absurd leased (StateRow.not_leased ended)
  | released release state before after projection identified saved failed closes =>
      rcases closes.held with ⟨held, lease, equal, leased, _⟩
      cases equal.symm.trans found
      exact absurd leased (StateRow.not_leased ended)

theorem Move.started {key : ProjectionKey} {event : EventId}
    {outcome : Outcome EventId} {before after : Option StateRow}
    (move : Move key event outcome before after) (found : before ≠ none) :
    after ≠ none := by
  cases move with
  | kept => exact found
  | leased claim grant lease before after projection member identified saved opens =>
      simp [saved]
  | completed completion before after projection identified closes =>
      rcases closes.held with ⟨held, lease, _, _, _, _, equal⟩
      simp [equal]
  | released release state before after projection identified saved failed closes =>
      simp [saved]

/-- The checkpoint that was replaced is the one that was read. -/
theorem replaced_revision {before after : OutboxStore EventId}
    (advanced : Advanced before after) {key : ProjectionKey} {partition : String}
    (replaced : after.checkpoint key partition = none ∨
      checkpointRevision (after.checkpoint key partition) =
        checkpointRevision (before.checkpoint key partition)) :
    checkpointRevision (after.checkpoint key partition) =
      checkpointRevision (before.checkpoint key partition) := by
  rcases replaced with absent | equal
  · have before_absent : before.checkpoint key partition = none := by
      by_contra present
      exact advanced.checkpoints present absent
    rw [absent, before_absent]
  · exact equal

section Advance

variable [LinearOrder EventId] {released : ReleasedOutboxData EventId}
  {before after : OutboxStore EventId} {outcome : Outcome EventId}

theorem Effect.data (effect : Effect released before outcome after)
    {scope : ScopeKey} {resource : String} {event : EventId}
    {data : OutboxData EventId}
    (found : before.data scope resource event = some data) :
    after.data scope resource event = some data := by
  cases effect with
  | inserted after effect => exact effect.intents found
  | claimed claim after effect =>
      have same : after.intent scope resource event =
          before.intent scope resource event :=
        effect.untouched _ fun grant member equal => nomatch equal
      rw [OutboxStore.data, same]
      exact found
  | completed completion after effect =>
      rcases effect.stored with ⟨row, _, rfl⟩
      exact found
  | released release after effect =>
      rcases effect.stored with ⟨failure, state, _, _, rfl⟩
      exact found

/-- A completion replaces the checkpoint of its partition. Nothing else changes
a checkpoint. -/
theorem Effect.checkpoint (effect : Effect released before outcome after)
    (key : ProjectionKey) (partition : String) :
    after.checkpoint key partition =
      ((outcome.counted? key partition).map Completion.checkpoint).or
        (before.checkpoint key partition) := by
  cases effect with
  | inserted after effect => exact effect.checkpoints key partition
  | claimed claim after effect =>
      exact effect.untouched _ fun grant member equal => nomatch equal
  | completed completion after effect =>
      rcases effect.stored with ⟨row, _, rfl⟩
      rw [OutboxStore.checkpoint_setState]
      by_cases same : completion.outbox.key = key ∧ completion.partition = partition
      · rcases same with ⟨rfl, rfl⟩
        simp [Outcome.counted?]
      · rw [OutboxStore.checkpoint_setCheckpoint_of_ne _ _ _ _ same]
        simp [Outcome.counted?, same]
  | released release after effect =>
      rcases effect.stored with ⟨failure, state, _, _, rfl⟩
      rfl

theorem Effect.advanced (effect : Effect released before outcome after) :
    Advanced before after where
  intents := effect.data
  ended := fun {key event _} found ended => (effect.move key event).ended found ended
  started := fun {key event} found => (effect.move key event).started found
  checkpoints := by
    intro key partition found
    rw [effect.checkpoint]
    cases outcome.counted? key partition with
    | none => exact found
    | some completion => simp

end Advance

end MeridianPostgreSQL.Projection
