import MeridianPostgreSQL.Foundation.PendingRows
import MeridianPostgreSQL.Projection.IntentGuards

/-! # Attempts and the poison threshold

Only a release compares attempts with the threshold. A claim that takes over
an expired lease counts one more attempt whatever the threshold is, so the
bound holds in the runs without such a claim of a last attempt. -/

namespace MeridianPostgreSQL.Projection

open ReadCommitted

variable {EventId : Type}

/-! ## Counting leases -/

section Counting

variable [DecidableEq EventId]

/-- The outcome leases the event. -/
def Outcome.leases (key : ProjectionKey) (event : EventId) : Outcome EventId → Bool
  | .claimed claim => decide (claim.outbox.key = key) &&
      claim.grants.any fun grant => decide (grant.data.eventId = event)
  | _ => false

/-- How often the event was leased. -/
def leaseCount (key : ProjectionKey) (event : EventId) (log : List (Outcome EventId)) :
    Nat :=
  log.countP (Outcome.leases key event)

theorem Outcome.leases_iff {key : ProjectionKey} {event : EventId}
    {outcome : Outcome EventId} : outcome.leases key event = true ↔
      ∃ claim, outcome = .claimed claim ∧ claim.outbox.key = key ∧
        ∃ grant ∈ claim.grants, grant.data.eventId = event := by
  cases outcome <;> simp [Outcome.leases]

theorem leaseCount_extend (key : ProjectionKey) (event : EventId)
    (log : List (Outcome EventId)) (outcome : Outcome EventId) :
    leaseCount key event (log ++ [outcome]) =
      leaseCount key event log + if outcome.leases key event then 1 else 0 := by
  simp [leaseCount, List.countP_singleton]

/-- No event is leased more than `n` times, and none is leased again after its
`n`-th attempt. -/
structure PoisonBound (n : Nat) (key : ProjectionKey) (log : List (Outcome EventId)) :
    Prop where
  bounded : ∀ event, leaseCount key event log ≤ n
  final : ∀ event earlier outcome later, log = earlier ++ outcome :: later →
    leaseCount key event earlier = n → outcome.leases key event = false

theorem PoisonBound.of_bounded {n : Nat} {key : ProjectionKey}
    {log : List (Outcome EventId)} (bounded : ∀ event, leaseCount key event log ≤ n) :
    PoisonBound n key log where
  bounded := bounded
  final := by
    rintro event earlier outcome later rfl reached
    by_contra leases
    have total := bounded event
    rw [leaseCount] at reached total
    rw [List.countP_append, List.countP_cons_of_pos (by simpa using leases)] at total
    omega

end Counting

variable [LinearOrder EventId] {released : ReleasedOutboxData EventId} {n : Nat}
  {key : ProjectionKey}

/-- The instances of the projection have the threshold `n`. -/
def Threshold (n : Nat) (key : ProjectionKey) (outbox : Outbox) : Prop :=
  outbox.key = key → outbox.poisonThreshold = n

/-- The attempts of a row count the leases of its event, and a row that waits
to be retried is below the threshold. -/
structure Counted (n : Nat) (key : ProjectionKey)
    (committed : Committed (OutboxRow EventId) (Outcome EventId)) : Prop where
  counted : ∀ event, leaseCount key event committed.log =
    attempts (OutboxStore.state committed.rows key event)
  waiting : ∀ event row, OutboxStore.state committed.rows key event = some row →
    (∃ failure, row.state = .retryable failure) → row.attempt < n

/-! ## One move -/

section Moves

variable {event : EventId} {outcome : Outcome EventId} {before after : Option StateRow}

omit [LinearOrder EventId] in
theorem Closes.attempts {owner : String} {now : Option CallerClock} {reading : Int}
    {state : OutboxState} (closes : Closes owner now reading state before after) :
    attempts after = attempts before := by
  rcases closes.held with ⟨row, lease, rfl, _, _, _, rfl⟩
  rfl

/-- A lease counts one attempt. Nothing else does. -/
theorem Move.counts (move : Move key event outcome before after) :
    attempts after = attempts before + if outcome.leases key event then 1 else 0 := by
  cases move with
  | kept _ row unconcerned =>
      have free : outcome.leases key event = false := by
        by_contra leases
        rcases Outcome.leases_iff.mp (by simpa using leases) with
          ⟨claim, rfl, projection, member⟩
        exact unconcerned ⟨projection, member⟩
      simp [free]
  | leased claim grant lease before after projection member identified saved opens =>
      have leases : Outcome.leases key event (.claimed claim) = true :=
        Outcome.leases_iff.mpr ⟨claim, rfl, projection, grant, member, identified⟩
      rcases opens.leased with ⟨row, rfl, _, counted⟩
      rw [leases, if_pos rfl, ← counted]
      rfl
  | completed completion before after projection identified closes =>
      exact closes.attempts
  | released release state before after projection identified saved failed closes =>
      exact closes.attempts

omit [LinearOrder EventId] in
theorem Move.waits (move : Move key event outcome before after)
    (retries : outcome.RetriesBelow) (within : outcome.Within (Threshold n key))
    (waiting : ∀ row, before = some row → (∃ failure, row.state = .retryable failure) →
      row.attempt < n) :
    ∀ row, after = some row → (∃ failure, row.state = .retryable failure) →
      row.attempt < n := by
  rintro row found ⟨failure, retryable⟩
  cases move with
  | kept _ same unconcerned => exact waiting row found ⟨failure, retryable⟩
  | leased claim grant lease before after projection member identified saved opens =>
      rcases opens.leased with ⟨stored, equal, leased, _⟩
      cases equal.symm.trans found
      exact nomatch leased.symm.trans retryable
  | completed completion before after projection identified closes =>
      rcases closes.held with ⟨held, lease, _, _, _, _, equal⟩
      cases equal.symm.trans found
      exact nomatch retryable
  | released release state before after projection identified saved failed closes =>
      cases saved.symm.trans found
      rw [← within projection]
      exact retries release rfl ⟨failure, retryable⟩

end Moves

/-! ## Steps and runs -/

variable {rows : OutboxStore EventId} {server next : OutboxServer EventId}

theorem retry_step (reachable : Reachable
      (OutboxTransaction released (Threshold n key)) rows server)
    (step : Step (OutboxTransaction released (Threshold n key)) server next) :
    next.committed = server.committed ∨ ∃ outcome after,
      Effect released server.committed.rows outcome after ∧
      outcome.Within (Threshold n key) ∧ outcome.RetriesBelow ∧
      next.committed = server.committed.extend outcome after := by
  have guarded : (retryContract released (Threshold n key)).Guarded intentGuard server :=
    Contract.reachable_guarded (fun _ transaction => transaction.certified)
      (by rintro _ ⟨call, within, rfl⟩; exact program_certified_guarded call within)
      retryContract_refines trivial reachable
  rcases guarded.step_effect step with same | ⟨outcome, after, effect, equal⟩
  · exact .inl same
  · exact .inr ⟨outcome, after, effect.1.1, effect.1.2, effect.2, equal⟩

theorem counted_of_reachable
    (fresh : ∀ event, rows.state key event = none)
    (reachable : Reachable (OutboxTransaction released (Threshold n key)) rows server) :
    Counted n key server.committed := by
  induction reachable with
  | refl =>
      constructor
      · intro event
        simp [Server.initial, leaseCount, fresh, attempts]
      · intro event row found
        simp [Server.initial, fresh] at found
  | tail rest step induction =>
      rcases retry_step rest step with same | ⟨outcome, after, effect, within, retries, equal⟩
      · rw [same]
        exact induction
      · rw [equal]
        constructor
        · intro event
          change leaseCount key event (_ ++ [outcome]) = attempts (after.state key event)
          rw [leaseCount_extend, induction.counted, (effect.move key event).counts]
        · intro event
          exact (effect.move key event).waits retries within (induction.waiting event)

/-! ### What the transactions write -/

/-- Each state of the projection is written once, by a claim's upsert or by the
final update of complete and release. -/
def AttemptChange (n : Nat) (key : ProjectionKey) :
    (slot : OutboxKey EventId) → (Option (OutboxRow EventId slot) → Change (OutboxRow EventId slot)) →
      Set (OutboxKey EventId) → Prop
  | .state other event, change, written => other = key → .state other event ∉ written ∧
      ((0 < n ∧ ∃ lease, change = leaseRow lease) ∨
        ∃ owner reading state, change = finishLease owner reading state)
  | _, _, _ => True

section Sends

variable {written : Set (OutboxKey EventId)} {post : Int → Set (OutboxKey EventId) → Prop}
  {outbox : Outbox}

omit [LinearOrder EventId] in
theorem sends_currentTime (now : Option CallerClock) (holds : ∀ reading, post reading written) :
    (currentTime now : OutboxProgram EventId Int).Sends (AttemptChange n key) post written := by
  cases now with
  | none => exact holds
  | some caller =>
      unfold currentTime
      dsimp only
      split
      · exact holds caller.instant
      · trivial

omit [LinearOrder EventId] in
theorem sends_finalTime (now : Option CallerClock) (holds : ∀ reading, post reading written) :
    (finalTime now : OutboxProgram EventId Int).Sends (AttemptChange n key) post written := by
  cases now with
  | none => exact holds
  | some caller => exact holds caller.instant

omit [LinearOrder EventId] in
theorem sends_load (event : EventId) :
    (outbox.load event).Sends (AttemptChange n key) (fun _ after => after = written) written := by
  unfold Outbox.load
  rw [Program.sends_bind]
  intro snapshot
  dsimp only [Program.Sends]
  split
  · trivial
  · rw [Program.sends_bind]
    intro row
    dsimp only [Program.Sends]
    split
    · trivial
    · split
      · rw [Program.sends_bind]
        exact fun _ => rfl
      · trivial

omit [LinearOrder EventId] in
theorem sends_leased (event : EventId) (owner : String) (now : Option CallerClock) :
    (outbox.leased event owner now).Sends (AttemptChange n key) (fun _ after => after = written)
      written := by
  unfold Outbox.leased
  rw [Program.sends_bind]
  refine (sends_load event).mono ?_
  rintro ⟨data, state⟩ after rfl
  rw [Program.sends_bind]
  refine sends_currentTime now fun reading => ?_
  dsimp only
  split
  · trivial
  · split
    · trivial
    · rfl

omit [LinearOrder EventId] in
theorem sends_complete (event : EventId) (owner : String) (acknowledged : Json)
    (targetFingerprint : String) (now : Option CallerClock) :
    (outbox.complete released event owner acknowledged targetFingerprint now).Sends
      (AttemptChange n key) (fun _ _ => True) ∅ := by
  unfold Outbox.complete
  split
  · trivial
  rw [Program.sends_bind]
  refine (sends_leased event owner now).mono ?_
  rintro ⟨data, row, current⟩ after rfl
  dsimp only
  split
  · trivial
  rw [Program.sends_bind]
  intro store
  dsimp only [Program.Sends]
  rw [Program.sends_bind]
  refine ⟨trivial, fun made => ?_⟩
  cases made with
  | keep | delete => trivial
  | put saved =>
      dsimp only [Program.Sends]
      rw [Program.sends_bind]
      refine sends_finalTime now fun reading => ?_
      rw [Program.sends_bind]
      refine ⟨fun _ => ⟨?_, .inr ⟨owner, reading, _, rfl⟩⟩, fun made => ?_⟩
      · rintro (same | absent)
        · cases same
        · exact absent
      · cases made <;> trivial

omit [LinearOrder EventId] in
theorem sends_release (event : EventId) (owner : String) (code : String) (retryable : Bool)
    (now : Option CallerClock) :
    (outbox.release event owner code retryable now).Sends (AttemptChange n key)
      (fun _ _ => True) ∅ := by
  unfold Outbox.release
  rw [Program.sends_bind]
  refine (sends_leased event owner now).mono ?_
  rintro ⟨data, row, current⟩ after rfl
  rw [Program.sends_bind]
  refine sends_finalTime now fun reading => ?_
  rw [Program.sends_bind]
  refine ⟨fun _ => ⟨Set.notMem_empty _, .inr ⟨owner, reading, _, rfl⟩⟩, fun made => ?_⟩
  cases made <;> trivial

omit [LinearOrder EventId] in
theorem sends_lockBatch (batch : List (OutboxData EventId)) (limit : Nat) :
    (outbox.lockBatch batch limit).Sends (AttemptChange n key)
      (fun rows after => rows.Sublist batch ∧ after = written) written := by
  induction batch generalizing limit with
  | nil => exact ⟨.slnil, rfl⟩
  | cons data rest induction =>
      cases limit with
      | zero => exact ⟨List.nil_sublist _, rfl⟩
      | succ limit =>
          unfold Outbox.lockBatch
          rw [Program.sends_bind]
          intro locked
          dsimp only [Program.Sends]
          split
          · rw [Program.sends_bind]
            refine (induction limit).mono ?_
            exact fun rows after kept => ⟨kept.1.cons_cons data, kept.2⟩
          · refine (induction (limit + 1)).mono ?_
            exact fun rows after kept => ⟨kept.1.cons data, kept.2⟩

omit [LinearOrder EventId] in
theorem sends_leaseRows (threshold : Threshold n key outbox) (owner : String) (duration : Int)
    (positive : 0 < duration) (now : Option CallerClock) (rows : List (OutboxData EventId))
    (bytes : Nat) (distinct : (rows.map OutboxData.eventId).Nodup)
    (fresh : ∀ data ∈ rows, .state outbox.key data.eventId ∉ written) :
    (outbox.leaseRows released owner duration positive now rows bytes).Sends
      (AttemptChange n key) (fun _ _ => True) written := by
  induction rows generalizing bytes written with
  | nil => trivial
  | cons data rest induction =>
      rw [List.map_cons, List.nodup_cons] at distinct
      obtain ⟨head, tail⟩ := List.forall_mem_cons.mp fresh
      unfold Outbox.leaseRows
      dsimp only
      split
      · trivial
      rw [Program.sends_bind]
      refine sends_currentTime now fun current => ?_
      rw [Program.sends_bind]
      refine ⟨fun same => ⟨head, .inl ⟨?_, _, rfl⟩⟩, fun made => ?_⟩
      · rw [← threshold same]
        exact outbox.thresholdPositive
      · dsimp only [Program.Sends]
        rw [Program.sends_bind]
        refine (induction _ distinct.2 ?_).mono fun others after _ => ?_
        · rintro other member (same | absent)
          · have events : other.eventId = data.eventId := (OutboxKey.state.inj same).2
            exact distinct.1 (events ▸ List.mem_map_of_mem member)
          · exact tail other member absent
        · cases made <;> trivial

theorem sends_claim (threshold : Threshold n key outbox) (owner : String) (limit duration : Int)
    (now : Option CallerClock) :
    (outbox.atomicClaim released owner limit duration now).Sends (AttemptChange n key)
      (fun _ _ => True) ∅ := by
  unfold Outbox.atomicClaim
  split
  · trivial
  split
  · trivial
  split
  · rw [Program.sends_bind]
    refine sends_currentTime now fun current => ?_
    rw [Program.sends_bind]
    intro store keys nodup complete
    dsimp only [Program.Sends]
    rw [Program.sends_bind]
    refine (sends_lockBatch _ _).mono ?_
    rintro rows after ⟨part, rfl⟩
    rw [Program.sends_bind]
    refine (sends_leaseRows threshold owner duration (by assumption) now rows 0 ?_ ?_).mono ?_
    · exact (candidates_distinct nodup complete).sublist (part.map _)
    · exact fun _ _ => Set.notMem_empty _
    · exact fun _ _ _ => trivial
  · trivial

omit [LinearOrder EventId] in
theorem sends_insertIntents (intents : List (ScopeKey × String × OutboxData EventId)) :
    (insertIntents intents).Sends (AttemptChange n key) (fun _ _ => True) written := by
  induction intents generalizing written with
  | nil => trivial
  | cons head rest induction =>
      unfold insertIntents
      rw [Program.sends_bind]
      refine ⟨trivial, fun made => ?_⟩
      cases made with
      | put => exact induction
      | keep | delete => trivial

theorem OutboxTransaction.sends {program : OutboxProgram EventId (Outcome EventId)}
    (transaction : OutboxTransaction released (Threshold n key) program) :
    program.Sends (AttemptChange n key) (fun _ _ => True) ∅ := by
  obtain ⟨call, within, rfl⟩ := transaction
  cases call with
  | insert intents => exact sends_insertIntents intents
  | atomicClaim outbox owner limit duration now =>
      exact sends_claim within owner limit duration now
  | complete outbox event owner acknowledged targetFingerprint now =>
      exact sends_complete event owner acknowledged targetFingerprint now
  | release outbox event owner code retryable now =>
      exact sends_release event owner code retryable now

end Sends

/-! ### Runs without a takeover of a last attempt -/

/-- The step sends a claim's upsert for an event that is stored under a lease of
its `n`-th attempt, which has expired at the claim's clock. -/
def Reclaims (n : Nat) (key : ProjectionKey) (server next : OutboxServer EventId) : Prop :=
  ∃ session transaction event lease after row held,
    server.Runs next session transaction ∧
    transaction.program = .modify (.state key event) (leaseRow lease) after ∧
    OutboxStore.state server.committed.rows key event = some row ∧
    row.state = .leased held ∧ held.expiresAt ≤ lease.acquiredAt ∧ n ≤ row.attempt

/-- A step that takes over no lease of a last attempt. -/
def Spares (released : ReleasedOutboxData EventId) (n : Nat) (key : ProjectionKey)
    (server next : OutboxServer EventId) : Prop :=
  Step (OutboxTransaction released (Threshold n key)) server next ∧ ¬ Reclaims n key server next

/-- The attempts of the projection's rows are within the threshold. -/
def AttemptsWithin (n : Nat) (key : ProjectionKey) :
    (slot : OutboxKey EventId) → OutboxRow EventId slot → Prop
  | .state other _, row => other = key → row.attempt ≤ n
  | _, _ => True

/-- What a step that spares last attempts writes is within the threshold. -/
theorem keeps_attempts {session : Nat}
    {transaction : Transaction (OutboxRow EventId) OutboxError (Outcome EventId)}
    (counted : Counted n key server.committed)
    (within : StoreHolds (AttemptsWithin n key) server.committed.rows)
    (spares : ¬ Reclaims n key server next) (runs : server.Runs next session transaction) :
    transaction.Keeps (AttemptChange n key) (AttemptsWithin n key) server.committed.rows := by
  rintro (_ | ⟨other, event⟩ | _) change after written sent covered allowed saved made
  · trivial
  · rintro rfl
    obtain ⟨fresh, changes⟩ := allowed rfl
    have unwritten : transaction.workspace.writes (.state other event) = none := by
      by_contra present
      exact fresh (covered _ present)
    rw [overlay_of_unwritten unwritten] at made
    have stored : ∀ row, OutboxStore.state server.committed.rows other event = some row →
        row.attempt ≤ n :=
      fun row found => within (.state other event) row found rfl
    have waiting := counted.waiting event
    change change (OutboxStore.state server.committed.rows other event) = .put saved at made
    rcases changes with ⟨positive, lease, rfl⟩ | ⟨owner, reading, state, rfl⟩
    · obtain ⟨free, _, attempt⟩ := leaseRow_put made
      cases found : OutboxStore.state server.committed.rows other event with
      | none =>
          rw [found] at attempt
          exact attempt.trans_le positive
      | some row =>
          rw [found] at attempt free
          refine attempt.trans_le (Nat.succ_le_of_lt ?_)
          cases state : row.state with
          | retryable failure => exact waiting row found ⟨failure, state⟩
          | leased held =>
              by_contra last
              have expired : held.expiresAt ≤ lease.acquiredAt := by
                simpa [claimable, state] using free
              exact spares ⟨session, transaction, event, lease, after, row, held, runs, sent,
                found, state, expired, not_lt.mp last⟩
          | completed | quarantined => simp [claimable, state] at free
    · obtain ⟨row, lease, found, _, _, _, rfl⟩ := finishLease_put made
      exact stored row found
  · trivial

theorem spares_reachable (run : Relation.ReflTransGen (Spares released n key) (.initial rows)
    server) : Reachable (OutboxTransaction released (Threshold n key)) rows server :=
  Relation.ReflTransGen.mono (fun _ _ => And.left) _ _ run

theorem attempts_within (fresh : ∀ event, rows.state key event = none)
    (run : Relation.ReflTransGen (Spares released n key) (.initial rows) server) :
    server.Holds (AttemptChange n key) (AttemptsWithin n key) := by
  induction run with
  | refl =>
      refine ⟨?_, fun session transaction absent => by cases absent⟩
      rintro (_ | ⟨other, event⟩ | _) row found
      · trivial
      · rintro rfl
        cases (fresh event).symm.trans found
      · trivial
  | tail rest step induction =>
      have counted := counted_of_reachable fresh (spares_reachable rest)
      exact induction.step (fun _ => OutboxTransaction.sends) step.1 fun _ _ runs =>
        keeps_attempts counted induction.committed step.2 runs

/-- The bound holds in every state of a run whose steps take over no expired lease
of a last attempt. -/
theorem poison_bound (fresh : ∀ event, rows.state key event = none)
    (run : Relation.ReflTransGen (Spares released n key) (.initial rows) server) :
    PoisonBound n key server.committed.log := by
  have counted := counted_of_reachable fresh (spares_reachable run)
  have within := (attempts_within fresh run).committed
  refine .of_bounded fun event => ?_
  rw [counted.counted]
  cases found : OutboxStore.state server.committed.rows key event with
  | none => exact Nat.zero_le n
  | some row => exact within (.state key event) row found rfl

theorem sample_spared {server next : OutboxServer Nat} {state : Option StateRow}
    (stored : server.committed.rows = sampleRows state)
    (early : ∀ row, state = some row → row.attempt < 2) :
    ¬ Reclaims 2 sampleOutbox.key server next := by
  rintro ⟨_, _, event, _, _, row, _, _, _, found, _, _, last⟩
  rw [stored, OutboxStore.state, sampleRows] at found
  split at found
  · exact absurd last (not_le.mpr (early row found))
  · cases found

/-- Two claims of the sample intent, the second after the first lease, are within
a threshold of two. -/
theorem poison_bound_reclaimed : ∃ server : OutboxServer Nat,
    server.committed.log = sampleLog.take 2 ∧
      PoisonBound 2 sampleOutbox.key server.committed.log := by
  have fresh : ∀ event, (sampleRows none).state sampleOutbox.key event = none :=
    fun event => ite_self none
  have taken : leaseRow (sampleLease 0) none = .put (sampleAttempt 1 Nat.one_pos 0) := rfl
  have retaken : leaseRow (sampleLease 100) (some (sampleAttempt 1 Nat.one_pos 0)) =
      .put (sampleAttempt 2 Nat.two_pos 100) := rfl
  have within : Threshold 2 sampleOutbox.key sampleOutbox := fun _ => rfl
  obtain ⟨first, toFirst, idle, stored, logged⟩ :=
    sample_claim_run within taken (.initial (sampleRows none)) rfl rfl
  obtain ⟨second, toSecond, _, _, relogged⟩ :=
    sample_claim_run within retaken first idle stored
  have spared : Relation.ReflTransGen (Spares sampleReleased 2 sampleOutbox.key)
      (.initial (sampleRows none)) second := by
    refine Relation.ReflTransGen.trans
      (Relation.ReflTransGen.mono (fun before after step => ?_) _ _ toFirst)
      (Relation.ReflTransGen.mono (fun before after step => ?_) _ _ toSecond)
    · refine ⟨step.1, sample_spared (congrArg Committed.rows step.2) fun row absent => ?_⟩
      cases absent
    · refine ⟨step.1, sample_spared ((congrArg Committed.rows step.2).trans stored) ?_⟩
      rintro row ⟨⟩
      decide
  exact ⟨second, by rw [relogged, logged]; rfl, poison_bound fresh spared⟩

/-- Claims that take over expired leases pass a threshold of two. -/
theorem expired_attempt_is_reclaimed :
    ¬ ∀ (n : Nat) (key : ProjectionKey) (rows : OutboxStore Nat)
      (server : OutboxServer Nat), (∀ event, rows.state key event = none) →
      Reachable (OutboxTransaction sampleReleased (Threshold n key)) rows server →
      PoisonBound n key server.committed.log := by
  intro bound
  have fresh : ∀ event, (sampleRows none).state sampleOutbox.key event = none :=
    fun event => ite_self none
  have taken : leaseRow (sampleLease 0) none = .put (sampleAttempt 1 Nat.one_pos 0) := rfl
  have retaken : leaseRow (sampleLease 100) (some (sampleAttempt 1 Nat.one_pos 0)) =
      .put (sampleAttempt 2 Nat.two_pos 100) := rfl
  have overtaken : leaseRow (sampleLease 200) (some (sampleAttempt 2 Nat.two_pos 100)) =
      .put (sampleAttempt 3 (by decide) 200) := rfl
  have within : Threshold 2 sampleOutbox.key sampleOutbox := fun _ => rfl
  obtain ⟨first, toFirst, idle, stored, logged⟩ :=
    sample_claim_run within taken (.initial (sampleRows none)) rfl rfl
  obtain ⟨second, toSecond, idle, stored, relogged⟩ :=
    sample_claim_run within retaken first idle stored
  obtain ⟨third, toThird, _, _, again⟩ := sample_claim_run within overtaken second idle stored
  have limit := (bound 2 sampleOutbox.key (sampleRows none) third fresh
    ((StepFrom.steps toFirst).trans
      ((StepFrom.steps toSecond).trans (StepFrom.steps toThird)))).bounded 7
  rw [again, relogged, logged] at limit
  exact absurd limit (by decide)

end MeridianPostgreSQL.Projection
