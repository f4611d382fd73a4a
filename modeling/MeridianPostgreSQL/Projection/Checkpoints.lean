import Mathlib.Data.Set.Card
import MeridianPostgreSQL.Projection.OutboxAtomicity

/-! # Checkpoint progress

The checkpoint of a partition counts the completed events of that partition
and describes the last of them. -/

namespace MeridianPostgreSQL.Projection

open ReadCommitted

variable {EventId : Type}

/-! ## Completions in commit order -/

/-- The completions that the checkpoint of a partition counts. -/
def countedCompletions (log : List (Outcome EventId)) (key : ProjectionKey)
    (partition : String) : List (Completion EventId) :=
  log.filterMap fun outcome => outcome.counted? key partition

theorem counted?_eq_some {outcome : Outcome EventId} {key : ProjectionKey}
    {partition : String} {completion : Completion EventId} :
    outcome.counted? key partition = some completion ↔
      outcome = .completed completion ∧ completion.outbox.key = key ∧
        completion.partition = partition := by
  cases outcome with
  | inserted | claimed | released => simp [Outcome.counted?]
  | completed other =>
      simp only [Outcome.counted?, Option.ite_none_right_eq_some,
        Option.some.injEq, Outcome.completed.injEq]
      constructor
      · rintro ⟨matching, rfl⟩
        exact ⟨rfl, matching⟩
      · rintro ⟨rfl, matching⟩
        exact ⟨matching, rfl⟩

theorem mem_countedCompletions {log : List (Outcome EventId)} {key : ProjectionKey}
    {partition : String} {completion : Completion EventId}
    (member : completion ∈ countedCompletions log key partition) :
    completion.outbox.key = key ∧ completion.partition = partition := by
  rcases List.mem_filterMap.mp member with ⟨_, _, found⟩
  exact (counted?_eq_some.mp found).2

theorem countedCompletions_extend (log : List (Outcome EventId))
    (outcome : Outcome EventId) (key : ProjectionKey) (partition : String) :
    countedCompletions (log ++ [outcome]) key partition =
      countedCompletions log key partition ++
        (outcome.counted? key partition).toList := by
  rw [countedCompletions, List.filterMap_append]
  cases found : outcome.counted? key partition <;>
    simp [countedCompletions, found]

/-- The completed events of a partition, as the tables hold them. -/
def completedEvents (released : ReleasedOutboxData EventId)
    (store : OutboxStore EventId) (key : ProjectionKey) (partition : String) :
    Set EventId :=
  { event | ∃ row data, store.state key event = some row ∧ row.Completed ∧
    store.data key.scope key.resource event = some data ∧
    released.partitionKey data = partition }

/-! ## The progress of one projection -/

/-- What the tables keep of a completion. -/
structure Recorded (released : ReleasedOutboxData EventId)
    (store : OutboxStore EventId) (completion : Completion EventId) : Prop where
  stored : store.data completion.outbox.scope completion.outbox.resource
    completion.data.eventId = some completion.data
  partition : completion.partition = released.partitionKey completion.data
  event : completion.checkpoint.eventId = completion.data.eventId
  version : completion.checkpoint.sourceVersion = completion.data.sourceVersion
  state : ∃ row, store.state completion.outbox.key completion.data.eventId = some row ∧
    row.state = .completed completion.checkpoint.targetFingerprint
      completion.checkpoint.advancedAt

/-- The checkpoints count the completions of the log, and the completed state
rows are the events of those completions. -/
structure Progress (released : ReleasedOutboxData EventId)
    (committed : Committed (OutboxRow EventId) (Outcome EventId))
    (key : ProjectionKey) : Prop where
  checkpoint : ∀ partition, OutboxStore.checkpoint committed.rows key partition =
    (countedCompletions committed.log key partition).getLast?.map
      Completion.checkpoint
  revision : ∀ partition,
    checkpointRevision (OutboxStore.checkpoint committed.rows key partition) =
      (countedCompletions committed.log key partition).length
  recorded : ∀ partition, ∀ completion ∈ countedCompletions committed.log key partition,
    Recorded released committed.rows completion
  logged : ∀ event row, OutboxStore.state committed.rows key event = some row →
    row.Completed → ∃ partition,
      ∃ completion ∈ countedCompletions committed.log key partition,
        completion.data.eventId = event
  distinct : ∀ partition, ((countedCompletions committed.log key partition).map
    fun completion => completion.data.eventId).Nodup

theorem Progress.initial (released : ReleasedOutboxData EventId)
    (intents : (scope : ScopeKey) → (resource : String) → (event : EventId) →
      Option { data : OutboxData EventId // data.eventId = event })
    (key : ProjectionKey) :
    Progress released ⟨OutboxStore.ofIntents intents, []⟩ key where
  checkpoint := fun _ => rfl
  revision := fun _ => rfl
  recorded := fun _ _ absent => nomatch absent
  logged := fun _ _ absent _ => nomatch absent
  distinct := fun _ => .nil

section Effects

variable [LinearOrder EventId] {released : ReleasedOutboxData EventId}
  {committed : Committed (OutboxRow EventId) (Outcome EventId)}
  {outcome : Outcome EventId} {before after : OutboxStore EventId}

omit [LinearOrder EventId] in
theorem Recorded.advanced {completion : Completion EventId}
    (recorded : Recorded released before completion)
    (advanced : Advanced before after) : Recorded released after completion where
  stored := advanced.intents recorded.stored
  partition := recorded.partition
  event := recorded.event
  version := recorded.version
  state := by
    rcases recorded.state with ⟨row, found, state⟩
    exact ⟨row, advanced.ended found (.inl ⟨_, _, state⟩), state⟩

theorem CompletionEffect.recorded {completion : Completion EventId}
    (effect : CompletionEffect released completion before after) :
    Recorded released after completion where
  stored := ((Effect.completed completion after effect).advanced).intents
    effect.loaded.stored
  partition := effect.partition
  event := effect.event
  version := effect.version
  state := by
    rcases effect.stored with ⟨row, ended, rfl⟩
    rcases ended.closes.held with ⟨held, lease, _, _, _, _, saved⟩
    cases saved
    exact ⟨_, OutboxStore.state_setState_self _ _ _ _, rfl⟩

/-- A completion completes an event that was not completed before. -/
theorem CompletionEffect.was_open {completion : Completion EventId}
    (effect : CompletionEffect released completion before after)
    {other : Completion EventId} (recorded : Recorded released before other)
    (projection : other.outbox.key = completion.outbox.key) :
    other.data.eventId ≠ completion.data.eventId := by
  intro same
  rcases recorded.state with ⟨row, found, state⟩
  rcases effect.stored with ⟨saved, ended, _⟩
  rcases ended.closes.held with ⟨held, lease, leased, leaseState, _⟩
  rw [projection, same] at found
  cases found.symm.trans leased
  exact nomatch state.symm.trans leaseState

omit [LinearOrder EventId] in
/-- A completed row was completed before or is completed now. -/
theorem Move.completed_before {key : ProjectionKey} {event : EventId}
    {before after : Option StateRow} {row : StateRow}
    (move : Move key event outcome before after) (found : after = some row)
    (completed : row.Completed) :
    before = some row ∨ ∃ completion, outcome = .completed completion ∧
      completion.outbox.key = key ∧ completion.data.eventId = event := by
  rcases completed with ⟨fingerprint, time, state⟩
  cases move with
  | kept => exact .inl found
  | leased claim grant lease before after projection member identified saved opens =>
      rcases opens.leased with ⟨held, equal, leased, _⟩
      cases equal.symm.trans found
      exact nomatch leased.symm.trans state
  | completed completion before after projection identified closes =>
      exact .inr ⟨completion, rfl, projection, identified⟩
  | released release ended before after projection identified saved failed closes =>
      rcases closes.held with ⟨held, lease, _, _, _, _, equal⟩
      cases equal.symm.trans found
      rcases failed with ⟨failure, rfl⟩ | ⟨failure, rfl⟩ <;> exact nomatch state

theorem Progress.extend {key : ProjectionKey}
    (progress : Progress released committed key)
    (effect : Effect released committed.rows outcome after) :
    Progress released (committed.extend outcome after) key where
  checkpoint := by
    intro partition
    change OutboxStore.checkpoint after key partition = _
    rw [effect.checkpoint, progress.checkpoint, Committed.extend,
      countedCompletions_extend]
    cases outcome.counted? key partition <;> simp
  revision := by
    intro partition
    change checkpointRevision (OutboxStore.checkpoint after key partition) = _
    rw [effect.checkpoint, Committed.extend, countedCompletions_extend]
    cases counted : outcome.counted? key partition with
    | none => simpa using progress.revision partition
    | some completion =>
        rcases counted?_eq_some.mp counted with ⟨rfl, rfl, rfl⟩
        cases effect with
        | completed completion after effect =>
            simp [checkpointRevision, effect.revision, ← progress.revision]
  recorded := by
    intro partition completion member
    rw [Committed.extend, countedCompletions_extend, List.mem_append] at member
    rcases member with old | new
    · exact (progress.recorded partition completion old).advanced effect.advanced
    · rw [Option.mem_toList] at new
      rcases counted?_eq_some.mp new with ⟨rfl, rfl, rfl⟩
      cases effect with
      | completed completion after effect => exact effect.recorded
  logged := by
    intro event row found completed
    rcases (effect.move key event).completed_before found completed with
      old | ⟨completion, same, projection, identified⟩
    · rcases progress.logged event row old completed with
        ⟨partition, completion, member, identified⟩
      refine ⟨partition, completion, ?_, identified⟩
      rw [Committed.extend, countedCompletions_extend]
      exact List.mem_append_left _ member
    · refine ⟨completion.partition, completion, ?_, identified⟩
      rw [Committed.extend, countedCompletions_extend, List.mem_append,
        Option.mem_toList]
      exact .inr (counted?_eq_some.mpr ⟨same, projection, rfl⟩)
  distinct := by
    intro partition
    rw [Committed.extend, countedCompletions_extend, List.map_append]
    cases counted : outcome.counted? key partition with
    | none => simpa using progress.distinct partition
    | some completion =>
        rcases counted?_eq_some.mp counted with ⟨rfl, rfl, rfl⟩
        cases effect with
        | completed completion after effect =>
            refine List.Nodup.append (progress.distinct completion.partition)
              (List.nodup_singleton _) ?_
            rintro event old new
            rw [List.mem_map] at old
            rcases old with ⟨other, member, rfl⟩
            exact effect.was_open (progress.recorded _ other member)
              (mem_countedCompletions member).1 (List.mem_singleton.mp new)

end Effects

/-! ## Runs -/

/-- The checkpoint of one partition is exact. -/
structure CheckpointCounts (released : ReleasedOutboxData EventId)
    (committed : Committed (OutboxRow EventId) (Outcome EventId))
    (key : ProjectionKey) (partition : String) : Prop where
  counted : (completedEvents released committed.rows key partition).encard =
    checkpointRevision (OutboxStore.checkpoint committed.rows key partition)
  last : ∀ {row}, OutboxStore.checkpoint committed.rows key partition = some row →
    ∃ completion,
      (countedCompletions committed.log key partition).getLast? = some completion ∧
      row = completion.checkpoint ∧
      Recorded released committed.rows completion
  kept : ∀ event, event ∈ completedEvents released committed.rows key partition ↔
    ∃ completion ∈ countedCompletions committed.log key partition,
      completion.data.eventId = event
  once : ((countedCompletions committed.log key partition).map
    fun completion => completion.data.eventId).Nodup

theorem Progress.kept {released : ReleasedOutboxData EventId}
    {committed : Committed (OutboxRow EventId) (Outcome EventId)}
    {key : ProjectionKey} (progress : Progress released committed key)
    (partition : String) (event : EventId) :
    event ∈ completedEvents released committed.rows key partition ↔
      ∃ completion ∈ countedCompletions committed.log key partition,
        completion.data.eventId = event := by
  constructor
  · rintro ⟨row, data, found, completed, stored, same⟩
    rcases progress.logged event row found completed with
      ⟨other, completion, member, rfl⟩
    have recorded := progress.recorded other completion member
    rcases mem_countedCompletions member with ⟨rfl, rfl⟩
    have equal : completion.data = data :=
      Option.some.inj (recorded.stored.symm.trans stored)
    refine ⟨completion, ?_, rfl⟩
    rw [← same, ← equal, ← recorded.partition]
    exact member
  · rintro ⟨completion, member, rfl⟩
    have recorded := progress.recorded partition completion member
    rcases mem_countedCompletions member with ⟨rfl, rfl⟩
    rcases recorded.state with ⟨row, found, state⟩
    exact ⟨row, completion.data, found, ⟨_, _, state⟩, recorded.stored,
      recorded.partition.symm⟩

theorem Progress.counts [DecidableEq EventId] {released : ReleasedOutboxData EventId}
    {committed : Committed (OutboxRow EventId) (Outcome EventId)}
    {key : ProjectionKey} (progress : Progress released committed key)
    (partition : String) : CheckpointCounts released committed key partition where
  counted := by
    have listed : completedEvents released committed.rows key partition =
        ((countedCompletions committed.log key partition).map
          fun completion => completion.data.eventId).toFinset := by
      ext event
      simp [progress.kept partition event]
    rw [listed, Set.encard_coe_eq_coe_finsetCard,
      List.toFinset_card_of_nodup (progress.distinct partition), List.length_map,
      progress.revision]
  last := by
    intro row found
    rw [progress.checkpoint, Option.map_eq_some_iff] at found
    rcases found with ⟨completion, last, rfl⟩
    exact ⟨completion, last, rfl,
      progress.recorded partition completion (List.mem_of_getLast? last)⟩
  kept := progress.kept partition
  once := progress.distinct partition

section Runs

variable [LinearOrder EventId] {released : ReleasedOutboxData EventId}
  {allowed : Outbox → Prop}
  {intents : (scope : ScopeKey) → (resource : String) → (event : EventId) →
    Option { data : OutboxData EventId // data.eventId = event }}
  {server : OutboxServer EventId}

theorem reachable_progress
    (reachable : Reachable (OutboxTransaction released allowed)
      (OutboxStore.ofIntents intents) server)
    (key : ProjectionKey) : Progress released server.committed key :=
  outbox_induction (fun committed => Progress released committed key)
    (.initial released intents key) (fun holds effect => holds.extend effect)
    reachable

/-- In every reachable state each checkpoint is exact. -/
theorem checkpoint_progress
    (reachable : Reachable (OutboxTransaction released allowed)
      (OutboxStore.ofIntents intents) server)
    (key : ProjectionKey) (partition : String) :
    CheckpointCounts released server.committed key partition :=
  (reachable_progress reachable key).counts partition

end Runs

/-- The checkpoint after the sample intent was claimed twice and completed. -/
theorem checkpoint_progress_worked : ∃ server : OutboxServer Nat,
    server.committed.log = sampleLog ∧
      CheckpointCounts sampleReleased server.committed sampleOutbox.key "items" := by
  obtain ⟨server, reachable, logged⟩ := @sample_worked (fun _ => True) trivial
  rw [sample_unclaimed] at reachable
  exact ⟨server, logged, checkpoint_progress reachable sampleOutbox.key "items"⟩

end MeridianPostgreSQL.Projection
