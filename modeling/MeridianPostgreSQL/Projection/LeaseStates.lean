import MeridianPostgreSQL.Projection.OutboxAtomicity

/-! # The lease state machine over whole runs

Every interleaving of outbox transactions moves each event through pending,
leased, retryable, completed and quarantined as one machine. A live lease is
exclusive until its owner ends it. -/

namespace MeridianPostgreSQL.Projection

open ReadCommitted

variable {EventId : Type}

/-! ## Expiry tests -/

section Expiry

variable {row : StateRow} {lease : Lease} (held : row.state = .leased lease)
  (reading : Int)

include held

theorem claimable_leased_iff :
    claimable (some row) reading = true ↔ lease.expiresAt ≤ reading := by
  simp [claimable, held]

theorem leaseRow_leased_iff (taker : Lease) :
    (∃ saved, leaseRow taker (some row) = .put saved) ↔
      lease.expiresAt ≤ taker.acquiredAt := by
  by_cases expired : lease.expiresAt ≤ taker.acquiredAt <;>
    simp [leaseRow, held, expired]

theorem leaseLost_leased_iff (owner : String) :
    leaseLost owner reading row = false ↔
      lease.owner = owner ∧ reading < lease.expiresAt := by
  simp [leaseLost, held]

theorem finishLease_leased_iff (owner : String) (state : OutboxState) :
    (∃ saved, finishLease owner reading state (some row) = .put saved) ↔
      lease.owner = owner ∧ reading < lease.expiresAt := by
  by_cases live : lease.owner = owner ∧ reading < lease.expiresAt
  · simp [finishLease, held, live]
  · simp only [finishLease, held, live, iff_false]
    rintro ⟨saved, ⟨⟩⟩

end Expiry

/-- At one reading, the tests of a claim and those of complete and release
split the leases between them. -/
structure Complementary (row : StateRow) (lease : Lease) (reading : Int) : Prop where
  selected : claimable (some row) reading = true ↔ lease.expiresAt ≤ reading
  taken : ∀ taker : Lease, taker.acquiredAt = reading →
    ((∃ saved, leaseRow taker (some row) = .put saved) ↔ lease.expiresAt ≤ reading)
  loaded : ∀ owner, leaseLost owner reading row = false ↔
    lease.owner = owner ∧ ¬ lease.expiresAt ≤ reading
  ended : ∀ owner state,
    (∃ saved, finishLease owner reading state (some row) = .put saved) ↔
      lease.owner = owner ∧ ¬ lease.expiresAt ≤ reading

theorem complementary {row : StateRow} {lease : Lease}
    (held : row.state = .leased lease) (reading : Int) :
    Complementary row lease reading where
  selected := claimable_leased_iff held reading
  taken := fun taker acquired => acquired ▸ leaseRow_leased_iff held taker
  loaded := fun owner => by rw [leaseLost_leased_iff held, not_le]
  ended := fun owner state => by rw [finishLease_leased_iff held, not_le]

/-! ## Two claims of one event -/

/-- The claim leased the event, as `lease`. -/
def Claim.Leases (claim : Claim EventId) (key : ProjectionKey) (event : EventId)
    (lease : Lease) : Prop :=
  claim.outbox.key = key ∧ ∃ grant ∈ claim.grants,
    grant.data.eventId = event ∧ grant.row.state = .leased lease

def Release.Ends (release : Release EventId) (key : ProjectionKey)
    (event : EventId) : Prop :=
  release.outbox.key = key ∧ release.data.eventId = event

/-- A release of the event is among the outcomes. -/
def ReleasedIn (outcomes : List (Outcome EventId)) (key : ProjectionKey)
    (event : EventId) : Prop :=
  ∃ release, .released release ∈ outcomes ∧ release.Ends key event

theorem ReleasedIn.append {outcomes : List (Outcome EventId)} {key : ProjectionKey}
    {event : EventId} (released : ReleasedIn outcomes key event)
    (outcome : Outcome EventId) : ReleasedIn (outcomes ++ [outcome]) key event :=
  released.imp fun _ found => ⟨List.mem_append_left _ found.1, found.2⟩

/-- Every lease ever granted was released, or its event is completed, or the
event is leased until the lease expires or longer. -/
def LeasesHold (committed : Committed (OutboxRow EventId) (Outcome EventId)) :
    Prop :=
  ∀ ⦃earlier claim later⦄, committed.log = earlier ++ .claimed claim :: later →
    ∀ ⦃key event lease⦄, claim.Leases key event lease →
    ReleasedIn later key event ∨
      ∃ row, OutboxStore.state committed.rows key event = some row ∧
        (row.Completed ∨
          ∃ held, row.state = .leased held ∧ lease.expiresAt ≤ held.expiresAt)

/-- Between two claims of one event it was released, or the first lease had
expired when the second was taken. -/
def LeasesExclude (log : List (Outcome EventId)) : Prop :=
  ∀ ⦃earlier first between second later⦄,
    log = earlier ++ .claimed first :: (between ++ .claimed second :: later) →
    ∀ ⦃key event lease taken⦄, first.Leases key event lease →
      second.Leases key event taken →
      ReleasedIn between key event ∨ lease.expiresAt ≤ taken.acquiredAt

variable [LinearOrder EventId] {released : ReleasedOutboxData EventId}

theorem ClaimEffect.opens {claim : Claim EventId} {before after : OutboxStore EventId}
    (effect : ClaimEffect claim before after) {key : ProjectionKey}
    {event : EventId} {lease : Lease} (leases : claim.Leases key event lease) :
    Opens claim.owner claim.now (before.state key event) (after.state key event)
      lease := by
  rcases leases with ⟨rfl, grant, member, rfl, leased⟩
  have granted := effect.granted grant member
  rcases granted.opens with ⟨taken, opens⟩
  rcases opens.leased with ⟨row, saved, state, _⟩
  cases saved
  cases state.symm.trans leased
  rw [granted.stored]
  exact opens

/-- A lease taken over a held one starts after the held one expires. -/
theorem Opens.after_expiry {owner : String} {now : Option CallerClock}
    {after : Option StateRow} {row : StateRow} {held lease : Lease}
    (opens : Opens owner now (some row) after lease)
    (leased : row.state = .leased held) : held.expiresAt ≤ lease.acquiredAt :=
  (claimable_leased_iff leased _).mp opens.free

theorem Opens.not_completed {owner : String} {now : Option CallerClock}
    {after : Option StateRow} {row : StateRow} {lease : Lease}
    (opens : Opens owner now (some row) after lease) : ¬ row.Completed := by
  intro completed
  have free := opens.free
  rw [StateRow.not_claimable (.inl completed)] at free
  exact nomatch free

omit [LinearOrder EventId] in
/-- A held lease is kept, ended, or taken over after it expired. -/
theorem Move.held {key : ProjectionKey} {event : EventId}
    {outcome : Outcome EventId} {row : StateRow} {after : Option StateRow}
    {held : Lease} (move : Move key event outcome (some row) after)
    (leased : row.state = .leased held) :
    ReleasedIn [outcome] key event ∨ ∃ saved, after = some saved ∧
      (saved.Completed ∨
        ∃ lease, saved.state = .leased lease ∧ held.expiresAt ≤ lease.expiresAt) := by
  cases move with
  | kept => exact .inr ⟨row, rfl, .inr ⟨held, leased, le_rfl⟩⟩
  | leased claim grant lease before after projection member identified saved opens =>
      have expired := opens.after_expiry leased
      rcases opens.leased with ⟨row, equal, state, _⟩
      exact .inr ⟨row, equal, .inr ⟨lease, state,
        expired.trans lease.expiresLater.le⟩⟩
  | completed completion before after projection identified closes =>
      rcases closes.held with ⟨_, _, _, _, _, _, equal⟩
      exact .inr ⟨_, equal, .inl ⟨_, _, rfl⟩⟩
  | released release state before after projection identified saved failed closes =>
      exact .inl ⟨release, .head _, projection, identified⟩

theorem LeasesHold.extend
    {committed : Committed (OutboxRow EventId) (Outcome EventId)}
    {outcome : Outcome EventId} {after : OutboxStore EventId}
    (holds : LeasesHold committed)
    (effect : Effect released committed.rows outcome after) :
    LeasesHold (committed.extend outcome after) := by
  intro earlier claim later split key event lease leases
  rcases extended_split split with ⟨rfl, rfl, rfl⟩ | ⟨rest, rfl, shorter⟩
  · cases effect with
    | claimed claim after effect =>
        rcases (effect.opens leases).leased with ⟨row, saved, state, _⟩
        exact .inr ⟨row, saved, .inr ⟨lease, state, le_rfl⟩⟩
  · have move := effect.move key event
    rcases holds shorter leases with
      freed | ⟨row, found, completed | ⟨held, leased, longer⟩⟩
    · exact .inl (freed.imp fun _ member => ⟨List.mem_append_left _ member.1, member.2⟩)
    · exact .inr ⟨row, move.ended found (.inl completed), .inl completed⟩
    · rw [found] at move
      rcases move.held leased with freed | ⟨saved, equal, progress⟩
      · exact .inl (freed.imp fun _ member =>
          ⟨List.mem_append_right _ member.1, member.2⟩)
      · refine .inr ⟨saved, equal, progress.imp_right ?_⟩
        rintro ⟨lease, state, later⟩
        exact ⟨lease, state, longer.trans later⟩

theorem LeasesExclude.extend
    {committed : Committed (OutboxRow EventId) (Outcome EventId)}
    {outcome : Outcome EventId} {after : OutboxStore EventId}
    (excludes : LeasesExclude committed.log) (holds : LeasesHold committed)
    (effect : Effect released committed.rows outcome after) :
    LeasesExclude (committed.extend outcome after).log := by
  intro earlier first between second later split key event lease taken leases takes
  rw [← List.cons_append, ← List.append_assoc] at split
  rcases extended_split split with ⟨rfl, shorter, rfl⟩ | ⟨rest, rfl, shorter⟩
  · cases effect with
    | claimed second after effect =>
        have opens := effect.opens takes
        rcases holds shorter.symm leases with
          freed | ⟨row, found, completed | ⟨held, leased, longer⟩⟩
        · exact .inl freed
        · rw [found] at opens
          exact absurd completed opens.not_completed
        · rw [found] at opens
          exact .inr (longer.trans (opens.after_expiry leased))
  · rw [List.append_assoc, List.cons_append] at shorter
    exact excludes shorter leases takes

/-! ## Runs -/

/-- What holds of the leases of a reachable server. -/
structure LeaseMachine (released : ReleasedOutboxData EventId)
    (allowed : Outbox → Prop) (server : OutboxServer EventId) : Prop where
  moves : ∀ {next}, Step (OutboxTransaction released allowed) server next →
    next.committed = server.committed ∨
      ∃ outcome, next.committed.log = server.committed.log ++ [outcome] ∧
        ∀ key event, Move key event outcome
          (OutboxStore.state server.committed.rows key event)
          (OutboxStore.state next.committed.rows key event)
  ended : ∀ {later},
    Relation.ReflTransGen (Step (OutboxTransaction released allowed)) server later →
      ∀ {key event row},
        OutboxStore.state server.committed.rows key event = some row →
        row.Completed ∨ row.Quarantined →
        OutboxStore.state later.committed.rows key event = some row
  exclusive : LeasesExclude server.committed.log
  expiry : ∀ {row lease}, row.state = .leased lease → ∀ reading,
    Complementary row lease reading

/-- Every interleaving of outbox transactions runs the lease state machine. -/
theorem lease_state_machine {allowed : Outbox → Prop} {rows : OutboxStore EventId}
    {server : OutboxServer EventId}
    (reachable : Reachable (OutboxTransaction released allowed) rows server) :
    LeaseMachine released allowed server where
  moves := by
    intro next step
    rcases outbox_step reachable step with
      same | ⟨outcome, after, effect, _, equal⟩
    · exact .inl same
    · rw [equal]
      exact .inr ⟨outcome, rfl, effect.move⟩
  ended := by
    intro later run key event row found ended
    exact (outbox_advanced reachable run).ended found ended
  exclusive := by
    have both : LeasesHold server.committed ∧ LeasesExclude server.committed.log := by
      apply outbox_induction (fun committed =>
        LeasesHold committed ∧ LeasesExclude committed.log) _ _ reachable
      · exact ⟨fun _ _ _ split => by simp at split,
          fun _ _ _ _ _ split => by simp at split⟩
      · rintro committed outcome after ⟨holds, excludes⟩ effect
        exact ⟨holds.extend effect, excludes.extend holds effect⟩
    exact both.2
  expiry := complementary

/-- The sample intent after a claim, a claim of its expired lease and a
completion. -/
theorem lease_state_machine_worked : ∃ server : OutboxServer Nat,
    server.committed.log = sampleLog ∧
      LeaseMachine sampleReleased (fun _ => True) server := by
  obtain ⟨server, reachable, logged⟩ := @sample_worked (fun _ => True) trivial
  exact ⟨server, logged, lease_state_machine reachable⟩

end MeridianPostgreSQL.Projection
