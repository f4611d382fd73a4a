import MeridianPostgreSQL.Projection.Checkpoints

/-! # The order of one identity's events

A claim leases the least incomplete event of an identity in its view. When
every intent is visible before a later intent of its identity is claimed, the
events of an identity are leased one at a time and completed in order. -/

namespace MeridianPostgreSQL.Projection

open ReadCommitted

variable {EventId : Type} [LinearOrder EventId]

/-! ## Claims in any run -/

/-- What every claim returns. -/
structure LeastFirst (claim : Claim EventId) : Prop where
  least : ∀ grant ∈ claim.grants,
    claim.outbox.LeastIncomplete claim.snapshot grant.data
  apart : ∀ left ∈ claim.grants, ∀ right ∈ claim.grants,
    SameIdentity left.data right.data → left = right

theorem ClaimEffect.leastFirst {claim : Claim EventId}
    {before after : OutboxStore EventId} (effect : ClaimEffect claim before after) :
    LeastFirst claim where
  least := fun grant member => (effect.granted grant member).first
  apart := by
    intro left leftMember right rightMember same
    have equal := (effect.granted left leftMember).first.unique
      (effect.granted right rightMember).first same
    exact List.inj_on_of_nodup_map effect.distinct leftMember rightMember
      (congrArg OutboxData.eventId equal)

/-! ## Orderly runs of one projection -/

/-- Two matching intents of one identity, in their order. -/
structure InIdentity (key : ProjectionKey) (spec : ProjectionSpec)
    (store : OutboxStore EventId) (prior data : OutboxData EventId) : Prop where
  first : Matching key spec store prior
  second : Matching key spec store data
  same : SameIdentity prior data
  earlier : Earlier prior data

/-- A commit that respects the order of arrival: a new intent comes before no
claimed intent of its identity, and a claim saw every intent that comes before
what it leases. -/
def Orderly (key : ProjectionKey) (spec : ProjectionSpec)
    (before : OutboxStore EventId) (outcome : Outcome EventId)
    (after : OutboxStore EventId) : Prop :=
  ∀ prior data, InIdentity key spec after prior data →
    match outcome with
    | .inserted => ¬ Matching key spec before prior →
        before.state key data.eventId = none
    | .claimed claim => claim.outbox.key = key →
        (∃ grant ∈ claim.grants, grant.data = data) →
        Matching key spec claim.snapshot prior
    | _ => True

/-- One projection is used under one specification. -/
def UnderOneSpec (key : ProjectionKey) (spec : ProjectionSpec) (outbox : Outbox) :
    Prop :=
  outbox.key = key → outbox.spec = spec

/-- A step whose commit, if it is one, is orderly. -/
def OrderlyStep (released : ReleasedOutboxData EventId) (key : ProjectionKey)
    (spec : ProjectionSpec) (server next : OutboxServer EventId) : Prop :=
  Step (OutboxTransaction released (UnderOneSpec key spec)) server next ∧
    ∀ outcome, next.committed.log = server.committed.log ++ [outcome] →
      Orderly key spec server.committed.rows outcome next.committed.rows

/-- Every event that has been claimed is a matching intent whose predecessors
are completed. -/
structure InOrder (key : ProjectionKey) (spec : ProjectionSpec)
    (store : OutboxStore EventId) : Prop where
  rooted : ∀ event, store.state key event ≠ none →
    ∃ data, data.eventId = event ∧ Matching key spec store data
  ordered : ∀ prior data, InIdentity key spec store prior data →
    store.state key data.eventId ≠ none →
    ∃ row, store.state key prior.eventId = some row ∧ row.Completed

theorem completed_of_not_incomplete {row : Option StateRow}
    (closed : incomplete row ≠ true) : ∃ saved, row = some saved ∧ saved.Completed := by
  cases row with
  | none => exact absurd rfl closed
  | some saved =>
      refine ⟨saved, rfl, ?_⟩
      simpa [incomplete] using closed

/-- Only an insert changes the stored intents. -/
theorem Effect.data_before {released : ReleasedOutboxData EventId}
    {before after : OutboxStore EventId} {outcome : Outcome EventId}
    (effect : Effect released before outcome after) {scope : ScopeKey}
    {resource : String} {event : EventId} {data : OutboxData EventId}
    (found : after.data scope resource event = some data) :
    before.data scope resource event = some data ∨ outcome = .inserted := by
  cases effect with
  | inserted after effect => exact .inr rfl
  | claimed claim after effect =>
      have same : after.intent scope resource event =
          before.intent scope resource event :=
        effect.untouched _ fun grant member equal => nomatch equal
      rw [OutboxStore.data, same] at found
      exact .inl found
  | completed completion after effect =>
      rcases effect.stored with ⟨row, _, rfl⟩
      exact .inl found
  | released release after effect =>
      rcases effect.stored with ⟨failure, state, _, _, rfl⟩
      exact .inl found

section Extension

variable {released : ReleasedOutboxData EventId} {key : ProjectionKey}
  {spec : ProjectionSpec} {before after : OutboxStore EventId}
  {outcome : Outcome EventId}

/-- What a claim leases has only completed predecessors in its view. -/
theorem ClaimEffect.predecessor_completed {claim : Claim EventId}
    (effect : ClaimEffect claim before after) {grant : Grant EventId}
    (member : grant ∈ claim.grants) {prior : OutboxData EventId}
    (visible : claim.outbox.Visible claim.snapshot prior)
    (same : SameIdentity prior grant.data) (earlier : Earlier prior grant.data) :
    ∃ row, before.state claim.outbox.key prior.eventId = some row ∧
      row.Completed := by
  have first := (effect.granted grant member).first
  have closed : incomplete (claim.outbox.joined claim.snapshot prior.eventId) ≠
      true := by
    intro unfinished
    rcases first.least visible same unfinished with rfl | after
    · exact Earlier.irrefl _ earlier
    · exact Earlier.irrefl _ (after.trans earlier)
  rcases completed_of_not_incomplete closed with ⟨row, found, completed⟩
  exact ⟨row, effect.observed.ended found (.inl completed), completed⟩

omit [LinearOrder EventId] in
/-- Only a claim gives an event its first state row. -/
theorem Move.first_lease {event : EventId} {row saved : Option StateRow}
    (move : Move key event outcome row saved) (fresh : row = none)
    (present : saved ≠ none) :
    ∃ claim, outcome = .claimed claim ∧ claim.outbox.key = key ∧
      ∃ grant ∈ claim.grants, grant.data.eventId = event := by
  cases move with
  | kept => exact absurd fresh present
  | leased claim grant lease before after projection member identified =>
      exact ⟨claim, rfl, projection, grant, member, identified⟩
  | completed completion before after projection identified closes =>
      rcases closes.held with ⟨held, lease, found, _⟩
      exact nomatch fresh.symm.trans found
  | released release state before after projection identified stored failed closes =>
      rcases closes.held with ⟨held, lease, found, _⟩
      exact nomatch fresh.symm.trans found

theorem Effect.claimed_inv {claim : Claim EventId}
    (effect : Effect released before (.claimed claim) after) :
    ClaimEffect claim before after := by
  cases effect with
  | claimed claim after effect => exact effect

/-- A claimed event's predecessors were all stored before the step. -/
theorem Orderly.first_before (orderly : Orderly key spec before outcome after)
    (effect : Effect released before outcome after)
    {prior data : OutboxData EventId} (pair : InIdentity key spec after prior data)
    (present : before.state key data.eventId ≠ none) :
    Matching key spec before prior := by
  rcases effect.data_before pair.first.stored with stored | rfl
  · exact ⟨stored, pair.first.selected⟩
  · by_contra absent
    exact present (orderly prior data pair absent)

/-- Orderly commits keep every identity in order. -/
theorem InOrder.extend (inOrder : InOrder key spec before)
    (effect : Effect released before outcome after)
    (within : outcome.Within (UnderOneSpec key spec))
    (orderly : Orderly key spec before outcome after) : InOrder key spec after := by
  have advanced := effect.advanced
  have leased : ∀ event, before.state key event = none →
      after.state key event ≠ none → ∃ claim, outcome = .claimed claim ∧
        ClaimEffect claim before after ∧ claim.outbox.key = key ∧
        claim.outbox.spec = spec ∧
        ∃ grant ∈ claim.grants, grant.data.eventId = event := by
    intro event fresh present
    rcases (effect.move key event).first_lease fresh present with
      ⟨claim, rfl, projection, granted⟩
    exact ⟨claim, rfl, effect.claimed_inv, projection, within projection, granted⟩
  constructor
  · intro event present
    by_cases fresh : before.state key event = none
    · rcases leased event fresh present with
        ⟨claim, rfl, claimEffect, rfl, rfl, grant, member, identified⟩
      have visible := (claimEffect.granted grant member).first.visible
      exact ⟨grant.data, identified, (visible.advanced claimEffect.observed).advanced
        advanced⟩
    · rcases inOrder.rooted event fresh with ⟨data, identified, holds⟩
      exact ⟨data, identified, holds.advanced advanced⟩
  · intro prior data pair present
    by_cases fresh : before.state key data.eventId = none
    · rcases leased data.eventId fresh present with
        ⟨claim, rfl, claimEffect, rfl, rfl, grant, member, identified⟩
      have visible := (claimEffect.granted grant member).first.visible
      have equal : grant.data = data :=
        ((visible.advanced claimEffect.observed).advanced advanced).unique pair.second
          identified
      have seen := orderly prior data pair rfl ⟨grant, member, equal⟩
      subst equal
      rcases claimEffect.predecessor_completed member seen pair.same pair.earlier with
        ⟨row, found, completed⟩
      exact ⟨row, advanced.ended found (.inl completed), completed⟩
    · rcases inOrder.rooted data.eventId fresh with ⟨other, identified, holds⟩
      have equal : other = data := (holds.advanced advanced).unique pair.second identified
      subst equal
      rcases inOrder.ordered prior other ⟨orderly.first_before effect pair fresh,
          holds, pair.same, pair.earlier⟩ fresh with
        ⟨row, found, completed⟩
      exact ⟨row, advanced.ended found (.inl completed), completed⟩

end Extension

/-! ## Completions in order -/

/-- A completion comes after the completions of everything earlier in its
identity. -/
def CompletedInOrder (key : ProjectionKey) (spec : ProjectionSpec)
    (committed : Committed (OutboxRow EventId) (Outcome EventId)) : Prop :=
  ∀ ⦃earlier completion later⦄,
    committed.log = earlier ++ .completed completion :: later →
    completion.outbox.key = key →
    ∀ prior, InIdentity key spec committed.rows prior completion.data →
      ∃ other, .completed other ∈ earlier ∧ other.outbox.key = key ∧
        other.data.eventId = prior.eventId

section Completions

variable {released : ReleasedOutboxData EventId} {key : ProjectionKey}
  {spec : ProjectionSpec}
  {committed : Committed (OutboxRow EventId) (Outcome EventId)}
  {outcome : Outcome EventId} {after : OutboxStore EventId}

omit [LinearOrder EventId] in
theorem Progress.logged_completion (progress : Progress released committed key)
    {event : EventId} {row : StateRow}
    (found : OutboxStore.state committed.rows key event = some row)
    (completed : row.Completed) :
    ∃ completion, .completed completion ∈ committed.log ∧
      completion.outbox.key = key ∧ completion.data.eventId = event := by
  rcases progress.logged event row found completed with
    ⟨partition, completion, member, identified⟩
  rcases List.mem_filterMap.mp member with ⟨outcome, logged, counted⟩
  rcases counted?_eq_some.mp counted with ⟨rfl, projection, _⟩
  exact ⟨completion, logged, projection, identified⟩

omit [LinearOrder EventId] in
theorem Progress.recorded_completion (progress : Progress released committed key)
    {completion : Completion EventId}
    (logged : .completed completion ∈ committed.log)
    (projection : completion.outbox.key = key) :
    Recorded released committed.rows completion :=
  progress.recorded completion.partition completion
    (List.mem_filterMap.mpr ⟨_, logged, counted?_eq_some.mpr ⟨rfl, projection, rfl⟩⟩)

theorem CompletedInOrder.extend (ordered : CompletedInOrder key spec committed)
    (inOrder : InOrder key spec committed.rows)
    (progress : Progress released committed key)
    (effect : Effect released committed.rows outcome after)
    (within : outcome.Within (UnderOneSpec key spec))
    (orderly : Orderly key spec committed.rows outcome after) :
    CompletedInOrder key spec (committed.extend outcome after) := by
  intro earlier completion later split projection prior pair
  rcases extended_split split with ⟨rfl, rfl, rfl⟩ | ⟨rest, rfl, shorter⟩
  · have under : completion.outbox.spec = spec := within projection
    cases effect with
    | completed completion after effect =>
        rcases effect.stored with ⟨row, ended, _⟩
        rcases ended.closes.held with ⟨held, lease, found, _⟩
        subst projection under
        have present : OutboxStore.state committed.rows completion.outbox.key
            completion.data.eventId ≠ none := by
          simp [found]
        have first := orderly.first_before (.completed _ _ effect) pair present
        rcases inOrder.ordered prior completion.data
            ⟨first, effect.loaded, pair.same, pair.earlier⟩ present with
          ⟨row, stored, completed⟩
        exact progress.logged_completion stored completed
  · have logged : .completed completion ∈ committed.log := by simp [shorter]
    have recorded := progress.recorded_completion logged projection
    rcases recorded.state with ⟨row, found, _⟩
    subst projection
    have present : OutboxStore.state committed.rows completion.outbox.key
        completion.data.eventId ≠ none := by
      simp [found]
    exact ordered shorter rfl prior
      ⟨orderly.first_before effect pair present,
        ⟨recorded.stored, pair.second.selected⟩, pair.same, pair.earlier⟩

end Completions

/-! ## Runs -/

/-- The events of every identity are leased one at a time and completed in
order. -/
structure OrderedIdentities (key : ProjectionKey) (spec : ProjectionSpec)
    (committed : Committed (OutboxRow EventId) (Outcome EventId)) : Prop where
  inOrder : InOrder key spec committed.rows
  completed : CompletedInOrder key spec committed
  single : ∀ {left right leftRow rightRow},
    Matching key spec committed.rows left →
    Matching key spec committed.rows right → SameIdentity left right →
    OutboxStore.state committed.rows key left.eventId = some leftRow →
    leftRow.Leased →
    OutboxStore.state committed.rows key right.eventId = some rightRow →
    rightRow.Leased → left = right

theorem InOrder.single {key : ProjectionKey} {spec : ProjectionSpec}
    {store : OutboxStore EventId} (inOrder : InOrder key spec store)
    {left right : OutboxData EventId} {leftRow rightRow : StateRow}
    (first : Matching key spec store left) (second : Matching key spec store right)
    (same : SameIdentity left right)
    (leftFound : store.state key left.eventId = some leftRow)
    (leftLeased : leftRow.Leased)
    (rightFound : store.state key right.eventId = some rightRow)
    (rightLeased : rightRow.Leased) : left = right := by
  have blocked : ∀ {prior data row priorRow}, InIdentity key spec store prior data →
      store.state key data.eventId = some row →
      store.state key prior.eventId = some priorRow → ¬ priorRow.Leased := by
    rintro prior data row priorRow pair found priorFound ⟨lease, leased⟩
    rcases inOrder.ordered prior data pair (by simp [found]) with
      ⟨other, equal, fingerprint, time, completed⟩
    cases equal.symm.trans priorFound
    exact nomatch completed.symm.trans leased
  by_cases identified : left.eventId = right.eventId
  · exact first.unique second identified
  · rcases Earlier.trichotomous identified with earlier | earlier
    · exact absurd leftLeased
        (blocked ⟨first, second, same, earlier⟩ rightFound leftFound)
    · exact absurd rightLeased
        (blocked ⟨second, first, same.symm, earlier⟩ leftFound rightFound)

/-- A run whose steps are orderly. -/
def OrderlyRun (released : ReleasedOutboxData EventId) (key : ProjectionKey)
    (spec : ProjectionSpec) :
    OutboxServer EventId → OutboxServer EventId → Prop :=
  Relation.ReflTransGen (OrderlyStep released key spec)

section Runs

variable {released : ReleasedOutboxData EventId} {key : ProjectionKey}
  {spec : ProjectionSpec} {server next later : OutboxServer EventId}
  {intents : (scope : ScopeKey) → (resource : String) → (event : EventId) →
    Option { data : OutboxData EventId // data.eventId = event }}

theorem OrderlyRun.steps (run : OrderlyRun released key spec server later) :
    Relation.ReflTransGen
      (Step (OutboxTransaction released (UnderOneSpec key spec))) server later :=
  Relation.ReflTransGen.mono (fun _ _ step => step.1) _ _ run

theorem OrderlyRun.ordered
    (run : OrderlyRun released key spec
      (.initial (OutboxStore.ofIntents intents)) server) :
    InOrder key spec server.committed.rows ∧
      CompletedInOrder key spec server.committed := by
  induction run with
  | refl =>
      exact ⟨⟨fun _ present => absurd rfl present, fun _ _ _ present => absurd rfl present⟩,
        fun _ _ _ split => by simp [Server.initial] at split⟩
  | @tail server next rest step induction =>
      have reachable : Reachable (OutboxTransaction released (UnderOneSpec key spec))
          (OutboxStore.ofIntents intents) server :=
        OrderlyRun.steps rest
      rcases outbox_step reachable step.1 with
        same | ⟨outcome, after, effect, within, equal⟩
      · rw [same]
        exact induction
      · have orderly := step.2 outcome (by rw [equal]; rfl)
        rw [equal] at orderly ⊢
        exact ⟨induction.1.extend effect within orderly,
          induction.2.extend induction.1 (reachable_progress reachable key) effect
            within orderly⟩

theorem InOrder.orderedIdentities {committed : Committed (OutboxRow EventId) (Outcome EventId)}
    (inOrder : InOrder key spec committed.rows)
    (completed : CompletedInOrder key spec committed) :
    OrderedIdentities key spec committed where
  inOrder := inOrder
  completed := completed
  single := inOrder.single

/-- A quarantined event keeps everything later in its identity unclaimed. -/
theorem OrderlyRun.blocked
    (start : OrderlyRun released key spec
      (.initial (OutboxStore.ofIntents intents)) server)
    (run : OrderlyRun released key spec server later)
    {prior data : OutboxData EventId} {row : StateRow}
    (found : OutboxStore.state server.committed.rows key prior.eventId = some row)
    (quarantined : row.Quarantined)
    (pair : InIdentity key spec later.committed.rows prior data) :
    OutboxStore.state later.committed.rows key data.eventId = none := by
  have reachable : Reachable (OutboxTransaction released (UnderOneSpec key spec))
      (OutboxStore.ofIntents intents) server := start.steps
  have kept := (outbox_advanced reachable run.steps).ended found (.inr quarantined)
  have inOrder := (OrderlyRun.ordered (start.trans run)).1
  by_contra present
  rcases inOrder.ordered prior data pair present with
    ⟨other, equal, fingerprint, time, completed⟩
  cases equal.symm.trans kept
  rcases quarantined with ⟨failure, state⟩
  exact nomatch completed.symm.trans state

/-- Every claim leased the least incomplete events in its view. -/
theorem reachable_leastFirst {allowed : Outbox → Prop} {rows : OutboxStore EventId}
    (reachable : Reachable (OutboxTransaction released allowed) rows server)
    {claim : Claim EventId} (logged : .claimed claim ∈ server.committed.log) :
    LeastFirst claim := by
  refine outbox_induction (fun committed =>
    ∀ claim, .claimed claim ∈ committed.log → LeastFirst claim)
    (fun _ absent => nomatch absent) ?_ reachable claim logged
  intro committed outcome after holds effect claim member
  rcases List.mem_append.mp member with old | new
  · exact holds claim old
  · cases List.mem_singleton.mp new
    exact effect.claimed_inv.leastFirst

/-- Per-identity order: a strict total order on events, respected by every claim
of every run, and by leases and completions in orderly runs. -/
structure IdentityOrder (released : ReleasedOutboxData EventId) : Prop where
  irreflexive : ∀ data : OutboxData EventId, ¬ Earlier data data
  transitive : ∀ {first second third : OutboxData EventId},
    Earlier first second → Earlier second third → Earlier first third
  total : ∀ {left right : OutboxData EventId}, left.eventId ≠ right.eventId →
    Earlier left right ∨ Earlier right left
  claims : ∀ {allowed rows server},
    Reachable (OutboxTransaction released allowed) rows server →
    ∀ {claim}, .claimed claim ∈ server.committed.log → LeastFirst claim
  runs : ∀ {intents key spec server},
    OrderlyRun released key spec (.initial (OutboxStore.ofIntents intents)) server →
    OrderedIdentities key spec server.committed
  blocked : ∀ {intents key spec server later},
    OrderlyRun released key spec (.initial (OutboxStore.ofIntents intents)) server →
    OrderlyRun released key spec server later →
    ∀ {prior data row},
      OutboxStore.state server.committed.rows key prior.eventId = some row →
      row.Quarantined →
      InIdentity key spec later.committed.rows prior data →
      OutboxStore.state later.committed.rows key data.eventId = none

theorem identity_order (released : ReleasedOutboxData EventId) :
    IdentityOrder released where
  irreflexive := Earlier.irrefl
  transitive := Earlier.trans
  total := Earlier.trichotomous
  claims := reachable_leastFirst
  runs := fun run => run.ordered.1.orderedIdentities run.ordered.2
  blocked := OrderlyRun.blocked

end Runs

end MeridianPostgreSQL.Projection
