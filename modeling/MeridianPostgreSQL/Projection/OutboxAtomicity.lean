import MeridianPostgreSQL.Foundation.TransactionRuns
import MeridianPostgreSQL.Projection.OutboxEffects

/-! # Atomicity of the outbox transactions

Each transaction of the port is certified against the abstract outbox: its
commit is one effect on the rows committed just before it. -/

namespace MeridianPostgreSQL.Projection

open ReadCommitted

variable {EventId : Type} [LinearOrder EventId]

/-- Transactions of the allowed outbox instances. -/
def outboxContract (released : ReleasedOutboxData EventId) (allowed : Outbox → Prop) :
    Contract (OutboxRow EventId) (Outcome EventId) where
  Invariant := fun _ => True
  Effect := fun committed outcome rows =>
    Effect released committed.rows outcome rows ∧ outcome.Within allowed
  preserved := fun _ _ => trivial

variable {released : ReleasedOutboxData EventId} {allowed : Outbox → Prop}
  {workspace : Workspace (OutboxRow EventId)}
  {committed later : Committed (OutboxRow EventId) (Outcome EventId)}

theorem advanced_of_interferes {locks : Set (OutboxKey EventId)}
    (interferes : (outboxContract released allowed).Interferes locks committed later) :
    Advanced committed.rows later.rows :=
  interferes.relates (fun before after => Advanced before.rows after.rows)
    trivial (fun committed => .refl committed.rows) .trans
    fun _ effect => effect.1.advanced

theorem state_of_interferes {locks : Set (OutboxKey EventId)}
    (interferes : (outboxContract released allowed).Interferes locks committed later)
    (key : ProjectionKey) (event : EventId) (locked : .state key event ∈ locks) :
    OutboxStore.state later.rows key event =
      OutboxStore.state committed.rows key event :=
  interferes.row_eq locked

theorem checkpoint_of_interferes {locks : Set (OutboxKey EventId)}
    (interferes : (outboxContract released allowed).Interferes locks committed later)
    (key : ProjectionKey) (partition : String)
    (locked : .checkpoint key partition ∈ locks) :
    OutboxStore.checkpoint later.rows key partition =
      OutboxStore.checkpoint committed.rows key partition :=
  interferes.row_eq locked

/-! ## Clock -/

theorem yields_currentTime (now : Option CallerClock)
    {post : Int → Workspace (OutboxRow EventId) →
      Committed (OutboxRow EventId) (Outcome EventId) → Prop}
    (holds : ∀ reading, (∀ caller, now = some caller → reading = caller.instant) →
      post reading workspace committed) :
    (outboxContract released allowed).Yields (currentTime now) post workspace committed := by
  cases now with
  | none => exact fun reading => holds reading fun caller absent => nomatch absent
  | some caller =>
      simp only [currentTime]
      split
      · exact holds _ fun other equal => by cases equal; rfl
      · exact Contract.yields_fail

theorem yields_finalTime (now : Option CallerClock)
    {post : Int → Workspace (OutboxRow EventId) →
      Committed (OutboxRow EventId) (Outcome EventId) → Prop}
    (holds : ∀ reading, (∀ caller, now = some caller → reading = caller.instant) →
      post reading workspace committed) :
    (outboxContract released allowed).Yields (finalTime now) post workspace committed := by
  cases now with
  | none => exact fun reading => holds reading fun caller absent => nomatch absent
  | some caller => exact holds _ fun other equal => by cases equal; rfl

/-! ## Loading -/

theorem yields_load (outbox : Outbox) (event : EventId)
    (unwritten : workspace.Unwritten) :
    (outboxContract released allowed).Yields (outbox.load event)
      (fun loaded workspace committed => workspace.Unwritten ∧
        loaded.1.eventId = event ∧ outbox.Visible committed.rows loaded.1)
      workspace committed := by
  unfold Outbox.load
  rw [Contract.yields_bind, Contract.yields_select]
  intro read _ _
  rw [unwritten.overlay]
  split
  · exact Contract.yields_fail
  · rw [Contract.yields_bind, Contract.yields_selectForUpdate, unwritten.overlay]
    dsimp only
    intro locked interferes _
    cases found : read.rows (.intent outbox.scope outbox.resource event) with
    | none => exact Contract.yields_fail
    | some row =>
        dsimp only
        split
        · rename_i selected
          rw [Contract.yields_bind, Contract.yields_select]
          intro final further _
          rw [Contract.yields_pure]
          refine ⟨unwritten.lockRow _ _, row.property, ?_, selected⟩
          have advanced := (advanced_of_interferes interferes).trans
            (advanced_of_interferes further)
          rw [row.property]
          exact advanced.intents (OutboxStore.data_of_stored found)
        · exact Contract.yields_fail

theorem yields_leased (outbox : Outbox) (event : EventId) (owner : String)
    (now : Option CallerClock) (unwritten : workspace.Unwritten) :
    (outboxContract released allowed).Yields (outbox.leased event owner now)
      (fun loaded workspace committed => workspace.Unwritten ∧
        loaded.1.eventId = event ∧ outbox.Visible committed.rows loaded.1)
      workspace committed := by
  unfold Outbox.leased
  rw [Contract.yields_bind]
  refine (yields_load outbox event unwritten).mono ?_
  rintro ⟨data, state⟩ workspace committed loaded
  rw [Contract.yields_bind]
  refine yields_currentTime now fun reading _ => ?_
  cases state with
  | none => exact Contract.yields_fail
  | some row =>
      dsimp only
      split
      · exact Contract.yields_fail
      · exact loaded

/-! ## Certified transactions -/

theorem overlay_setState (workspace : Workspace (OutboxRow EventId))
    (key : ProjectionKey) (event : EventId) (row : StateRow)
    (store : OutboxStore EventId) :
    overlay (workspace.record (.state key event) (.put row)).writes store =
      OutboxStore.setState (overlay workspace.writes store) key event row :=
  workspace.overlay_record_put _ _ store

theorem overlay_setCheckpoint (workspace : Workspace (OutboxRow EventId))
    (key : ProjectionKey) (partition : String) (row : CheckpointRow EventId)
    (store : OutboxStore EventId) :
    overlay (workspace.record (.checkpoint key partition) (.put row)).writes store =
      OutboxStore.setCheckpoint (overlay workspace.writes store) key partition
        row :=
  workspace.overlay_record_put _ _ store

theorem complete_certified (outbox : Outbox) (permitted : allowed outbox) (event : EventId) (owner : String)
    (acknowledged : Json) (targetFingerprint : String) (now : Option CallerClock) :
    (outboxContract released allowed).Certifies
      (outbox.complete released event owner acknowledged targetFingerprint now) := by
  intro committed _
  unfold Outbox.complete
  split
  · exact Contract.yields_fail
  · rw [Contract.yields_bind]
    refine (yields_leased outbox event owner now Workspace.fresh_unwritten).mono ?_
    rintro ⟨data, row, current⟩ workspace loaded ⟨unwritten, identified, visible⟩
    dsimp only at identified visible ⊢
    subst identified
    split
    · exact Contract.yields_fail
    · rw [Contract.yields_bind, Contract.yields_select, unwritten.overlay]
      intro read toRead _
      rw [Contract.yields_bind]
      refine Contract.yields_write.mpr ?_
      rw [unwritten.overlay]
      dsimp only
      generalize advance : advanceCheckpoint _ _ _ = made
      intro saved toSaved _
      cases made with
      | keep | delete => exact Contract.yields_fail
      | put checkpoint =>
          dsimp only
          rw [Contract.yields_bind]
          refine yields_finalTime now fun reading supplied => ?_
          rw [Contract.yields_bind]
          refine Contract.yields_write.mpr ?_
          rw [overlay_setCheckpoint, unwritten.overlay]
          dsimp only
          generalize finish : finishLease _ _ _ _ = changed
          intro final toFinal _
          cases changed with
          | keep | delete => exact Contract.yields_fail
          | put row =>
              dsimp only
              rw [Contract.yields_pure, Contract.Commits, overlay_setState,
                overlay_setCheckpoint, unwritten.overlay]
              rcases advanceCheckpoint_put advance with ⟨rfl, replaced⟩
              have checkpointKept := (checkpoint_of_interferes toFinal outbox.key
                (released.partitionKey data) (by simp)).trans
                (checkpoint_of_interferes toSaved _ _ (by simp))
              have stateKept := state_of_interferes toFinal outbox.key
                data.eventId (by simp)
              have advanced := (advanced_of_interferes toRead).trans
                ((advanced_of_interferes toSaved).trans
                  (advanced_of_interferes toFinal))
              refine ⟨.completed _ _ ⟨visible.advanced advanced, rfl, ?_, rfl, rfl,
                row, ⟨supplied, ?_⟩, rfl⟩, permitted⟩
              · have equal := replaced_revision (advanced_of_interferes toRead) replaced
                rw [checkpointKept, equal]
              · rw [stateKept]
                exact finish

theorem release_certified (outbox : Outbox) (permitted : allowed outbox) (event : EventId) (owner : String)
    (code : String) (retryable : Bool) (now : Option CallerClock) :
    (outboxContract released allowed).Certifies
      (outbox.release event owner code retryable now) := by
  intro committed _
  unfold Outbox.release
  rw [Contract.yields_bind]
  refine (yields_leased outbox event owner now Workspace.fresh_unwritten).mono ?_
  rintro ⟨data, row, current⟩ workspace loaded ⟨unwritten, identified, visible⟩
  dsimp only at identified visible ⊢
  subst identified
  rw [Contract.yields_bind]
  refine yields_finalTime now fun reading supplied => ?_
  rw [Contract.yields_bind]
  refine Contract.yields_write.mpr ?_
  rw [unwritten.overlay]
  dsimp only
  generalize stateChosen : (if (retryable && decide (row.attempt <
    outbox.poisonThreshold)) = true then _ else _ : OutboxState) = state
  generalize finish : finishLease _ _ _ _ = changed
  intro final toFinal _
  cases changed with
  | keep | delete => exact Contract.yields_fail
  | put saved =>
      dsimp only
      rw [Contract.yields_pure, Contract.Commits, overlay_setState,
        unwritten.overlay]
      have stateKept := state_of_interferes toFinal outbox.key data.eventId (by simp)
      have advanced := advanced_of_interferes toFinal
      refine ⟨.released _ _ ⟨visible.advanced advanced,
        redactedFailure code current, state, ?_, ⟨supplied, ?_⟩, rfl⟩, permitted⟩
      · rw [← stateChosen]
        split
        · exact .inl rfl
        · exact .inr rfl
      · rw [stateKept]
        exact finish

/-! ## Inserting intents -/

/-- Every written row is a new intent. -/
def InsertsOnly (workspace : Workspace (OutboxRow EventId))
    (store : OutboxStore EventId) : Prop :=
  ∀ key, workspace.writes key ≠ none →
    (∃ scope resource event, key = .intent scope resource event) ∧
      store key = none ∧ key ∈ workspace.locks

theorem InsertsOnly.interfered (inserts : InsertsOnly workspace committed.rows)
    (interferes : (outboxContract released allowed).Interferes workspace.locks committed
      later) : InsertsOnly workspace later.rows := by
  intro key written
  rcases inserts key written with ⟨intent, absent, locked⟩
  exact ⟨intent, (interferes.row_eq locked).trans absent, locked⟩

omit [LinearOrder EventId] in
theorem InsertsOnly.effect {store : OutboxStore EventId}
    (inserts : InsertsOnly workspace store) :
    InsertEffect store (overlay workspace.writes store) := by
  have unwritten : ∀ key, store key ≠ none ∨
      (∀ scope resource event, key ≠ .intent scope resource event) →
      overlay workspace.writes store key = store key := by
    intro key reason
    apply overlay_of_unwritten
    by_contra written
    rcases inserts key written with ⟨⟨scope, resource, event, rfl⟩, absent, _⟩
    rcases reason with present | other
    · exact present absent
    · exact other scope resource event rfl
  constructor
  · intro scope resource event data found
    have present : store (.intent scope resource event) ≠ none := by
      intro absent
      simp [OutboxStore.data, OutboxStore.intent, absent] at found
    rw [OutboxStore.data, OutboxStore.intent, unwritten _ (.inl present)]
    exact found
  · exact fun key event => unwritten _ (.inr fun _ _ _ equal => by cases equal)
  · exact fun key partition => unwritten _ (.inr fun _ _ _ equal => by cases equal)

theorem InsertsOnly.insert {store : OutboxStore EventId}
    (inserts : InsertsOnly workspace store) {scope : ScopeKey} {resource : String}
    {event : EventId}
    (absent : overlay workspace.writes store (.intent scope resource event) = none)
    (row : OutboxRow EventId (.intent scope resource event)) :
    InsertsOnly (workspace.record (.intent scope resource event) (.put row))
      store := by
  intro key written
  by_cases same : key = .intent scope resource event
  · subst key
    refine ⟨⟨scope, resource, event, rfl⟩, ?_, Set.mem_insert _ _⟩
    cases found : workspace.writes (.intent scope resource event) with
    | none => exact (overlay_of_unwritten found).symm.trans absent
    | some change => exact (inserts _ (by simp [found])).2.1
  · rw [Workspace.record_put_writes, Function.update_of_ne same] at written
    rcases inserts key written with ⟨intent, missing, locked⟩
    exact ⟨intent, missing, Set.mem_insert_of_mem _ locked⟩

theorem yields_insertIntents
    (intents : List (ScopeKey × String × OutboxData EventId))
    (inserts : InsertsOnly workspace committed.rows) :
    (outboxContract released allowed).Yields (insertIntents intents)
      (outboxContract released allowed).Commits workspace committed := by
  induction intents generalizing workspace committed with
  | nil => exact ⟨.inserted _ inserts.effect, trivial⟩
  | cons head rest induction =>
      rcases head with ⟨scope, resource, data⟩
      unfold insertIntents
      rw [Contract.yields_bind]
      refine Contract.yields_write.mpr ?_
      dsimp only
      cases found : overlay workspace.writes committed.rows
          (.intent scope resource data.eventId) with
      | some row => exact fun later _ _ => Contract.yields_fail
      | none =>
          dsimp only
          intro later interferes _
          exact induction ((inserts.insert found _).interfered interferes)

theorem insert_certified
    (intents : List (ScopeKey × String × OutboxData EventId)) :
    (outboxContract released allowed).Certifies (insertIntents intents) :=
  fun _ _ => yields_insertIntents intents fun _ written => absurd rfl written

/-! ## Selecting candidates -/

section Selection

variable {outbox : Outbox} {store : OutboxStore EventId}

omit [LinearOrder EventId] in
theorem wanted_iff {key : OutboxKey EventId} :
    outbox.wanted store key = true ↔
      ∃ data, key = .intent outbox.scope outbox.resource data.eventId ∧
        outbox.Visible store data := by
  constructor
  · intro wanted
    cases key with
    | state | checkpoint => exact nomatch wanted
    | intent scope resource event =>
        simp only [Outbox.wanted, Bool.and_eq_true, beq_iff_eq] at wanted
        rcases wanted with ⟨rfl, rfl, selected⟩
        cases found : store.intent outbox.scope outbox.resource event with
        | none => simp [found] at selected
        | some row =>
            rw [found] at selected
            refine ⟨row.val, by rw [row.property], ?_, selected⟩
            rw [row.property]
            exact OutboxStore.data_of_stored found
  · rintro ⟨data, rfl, stored, selected⟩
    rcases Option.map_eq_some_iff.mp stored with ⟨row, found, equal⟩
    rw [Outbox.key_scope, Outbox.key_resource] at found
    simp [Outbox.wanted, found, equal, selected]

omit [LinearOrder EventId] in
theorem mem_intentsOf {keys : List (OutboxKey EventId)}
    (complete : ∀ key, key ∈ keys ↔ outbox.wanted store key = true)
    {data : OutboxData EventId} :
    data ∈ intentsOf store keys ↔ outbox.Visible store data := by
  rw [intentsOf, List.mem_filterMap]
  constructor
  · rintro ⟨key, member, found⟩
    rcases wanted_iff.mp ((complete key).mp member) with ⟨other, rfl, visible⟩
    have equal : other = data :=
      Option.some.inj (visible.stored.symm.trans found)
    exact equal ▸ visible
  · intro visible
    exact ⟨_, (complete _).mpr (wanted_iff.mpr ⟨data, rfl, visible⟩), visible.stored⟩

omit [LinearOrder EventId] in
theorem intentsOf_distinct {keys : List (OutboxKey EventId)} (nodup : keys.Nodup)
    (complete : ∀ key, key ∈ keys ↔ outbox.wanted store key = true) :
    ((intentsOf store keys).map OutboxData.eventId).Nodup := by
  rw [List.Nodup, List.pairwise_map, intentsOf, List.pairwise_filterMap]
  refine nodup.imp_of_mem ?_
  intro left right leftMember rightMember different first firstFound second
    secondFound same
  rcases wanted_iff.mp ((complete left).mp leftMember) with ⟨one, rfl, oneVisible⟩
  rcases wanted_iff.mp ((complete right).mp rightMember) with ⟨two, rfl, twoVisible⟩
  have oneEqual : one = first :=
    Option.some.inj (oneVisible.stored.symm.trans firstFound)
  have twoEqual : two = second :=
    Option.some.inj (twoVisible.stored.symm.trans secondFound)
  exact different (by rw [oneEqual, twoEqual, same])

theorem incomplete_of_claimable {row : Option StateRow} {current : Int}
    (free : claimable row current = true) : incomplete row = true := by
  cases row with
  | none => rfl
  | some row =>
      cases state : row.state <;>
        simp_all [claimable, incomplete, StateRow.isCompleted]

/-- A candidate is the least incomplete event of its identity in view. -/
theorem candidates_least {keys : List (OutboxKey EventId)} {current : Int}
    (complete : ∀ key, key ∈ keys ↔ outbox.wanted store key = true)
    {data : OutboxData EventId}
    (member : data ∈ outbox.candidates store (intentsOf store keys) current) :
    outbox.LeastIncomplete store data := by
  rw [Outbox.candidates, List.mem_mergeSort, List.mem_filter] at member
  rcases member with ⟨listed, allowed⟩
  rw [Bool.and_eq_true, Bool.not_eq_true', List.any_eq_false] at allowed
  rcases allowed with ⟨free, unblocked⟩
  have visible := (mem_intentsOf complete).mp listed
  refine ⟨visible, incomplete_of_claimable free, ?_⟩
  intro other otherVisible same unfinished
  have notEarlier : ¬ Earlier other data := by
    intro earlier
    apply unblocked other ((mem_intentsOf complete).mpr otherVisible)
    simp [Outbox.blocks, same, earlier, unfinished]
  by_cases identified : other.eventId = data.eventId
  · exact .inl (otherVisible.unique visible identified)
  · exact .inr ((Earlier.trichotomous identified).resolve_left notEarlier)

theorem candidates_distinct {keys : List (OutboxKey EventId)} {current : Int}
    (nodup : keys.Nodup)
    (complete : ∀ key, key ∈ keys ↔ outbox.wanted store key = true) :
    ((outbox.candidates store (intentsOf store keys) current).map
      OutboxData.eventId).Nodup := by
  have permuted := (List.mergeSort_perm ((intentsOf store keys).filter fun data =>
    claimable (outbox.joined store data.eventId) current &&
      !(intentsOf store keys).any fun prior => outbox.blocks store prior data)
    fun left right => toLex (left.occurredAt, left.eventId) ≤
      toLex (right.occurredAt, right.eventId)).map OutboxData.eventId
  refine permuted.nodup_iff.mpr ?_
  exact (intentsOf_distinct nodup complete).sublist
    (List.filter_sublist.map OutboxData.eventId)

end Selection

/-! ## Claiming -/

theorem yields_lockBatch (outbox : Outbox) (batch : List (OutboxData EventId))
    (limit : Nat) (unwritten : workspace.Unwritten) :
    (outboxContract released allowed).Yields (outbox.lockBatch batch limit)
      (fun rows workspace later => rows.Sublist batch ∧ workspace.Unwritten ∧
        Advanced committed.rows later.rows)
      workspace committed := by
  induction batch generalizing limit workspace committed with
  | nil =>
      unfold Outbox.lockBatch
      exact ⟨.refl [], unwritten, .refl committed.rows⟩
  | cons data rest induction =>
      cases limit with
      | zero =>
          unfold Outbox.lockBatch
          exact ⟨List.nil_sublist _, unwritten, .refl committed.rows⟩
      | succ limit =>
          unfold Outbox.lockBatch
          rw [Contract.yields_bind]
          refine Contract.yields_skipLocked.mpr ⟨?_, ?_⟩
          · intro later interferes _
            have advanced := advanced_of_interferes interferes
            refine (induction (limit + 1) unwritten).mono ?_
            rintro rows workspace final ⟨sublist, unwritten, rest⟩
            exact ⟨sublist.cons data, unwritten, advanced.trans rest⟩
          · intro later interferes _
            have advanced := advanced_of_interferes interferes
            rw [if_pos rfl, Contract.yields_bind]
            refine (induction limit (unwritten.lock _)).mono ?_
            rintro rows workspace final ⟨sublist, unwritten, rest⟩
            exact ⟨sublist.cons_cons data, unwritten, advanced.trans rest⟩

/-- A lease held by the transaction, taken from the committed row. -/
structure Leases (outbox : Outbox) (owner : String) (now : Option CallerClock)
    (workspace : Workspace (OutboxRow EventId)) (store : OutboxStore EventId)
    (grant : Grant EventId) : Prop where
  written : workspace.writes (.state outbox.key grant.data.eventId) =
    some (some grant.row)
  taken : ∃ lease : Lease, lease.owner = owner ∧
    (∀ reading, now = some reading → lease.acquiredAt = reading.instant) ∧
    leaseRow lease (store.state outbox.key grant.data.eventId) = .put grant.row

/-- The rows a claim has leased so far: all of them written, and no others. -/
structure LeasedBatch (outbox : Outbox) (owner : String) (now : Option CallerClock)
    (rows : List (OutboxData EventId)) (grants : List (Grant EventId))
    (start workspace : Workspace (OutboxRow EventId))
    (before after : OutboxStore EventId) : Prop where
  sublist : (grants.map Grant.data).Sublist rows
  leases : ∀ grant ∈ grants, Leases outbox owner now workspace after grant
  untouched : ∀ key, (∀ grant ∈ grants,
    key ≠ .state outbox.key grant.data.eventId) →
    workspace.writes key = start.writes key
  kept : ∀ key ∈ start.locks, after key = before key
  advanced : Advanced before after

theorem LeasedBatch.skip {outbox : Outbox} {owner : String}
    {now : Option CallerClock} {data : OutboxData EventId}
    {rows : List (OutboxData EventId)} {grants : List (Grant EventId)}
    {start : Workspace (OutboxRow EventId)} {after : OutboxStore EventId}
    (interferes : (outboxContract released allowed).Interferes start.locks committed later)
    (batch : LeasedBatch outbox owner now rows grants start workspace later.rows
      after) :
    LeasedBatch outbox owner now (data :: rows) grants start workspace
      committed.rows after where
  sublist := batch.sublist.cons data
  leases := batch.leases
  untouched := batch.untouched
  kept := fun key locked =>
    (batch.kept key locked).trans (interferes.row_eq locked)
  advanced := (advanced_of_interferes interferes).trans batch.advanced

theorem LeasedBatch.take {outbox : Outbox} {owner : String}
    {now : Option CallerClock} {data : OutboxData EventId} {row : StateRow}
    {rows : List (OutboxData EventId)} {grants : List (Grant EventId)}
    {start : Workspace (OutboxRow EventId)} {after : OutboxStore EventId}
    {lease : Lease} (owned : lease.owner = owner)
    (supplied : ∀ reading, now = some reading → lease.acquiredAt = reading.instant)
    (taken : leaseRow lease (OutboxStore.state committed.rows outbox.key
      data.eventId) = .put row)
    (fresh : data.eventId ∉ rows.map OutboxData.eventId)
    (interferes : (outboxContract released allowed).Interferes
      (start.record (.state outbox.key data.eventId) (.put row)).locks committed
      later)
    (batch : LeasedBatch outbox owner now rows grants
      (start.record (.state outbox.key data.eventId) (.put row)) workspace
      later.rows after) :
    LeasedBatch outbox owner now (data :: rows) (⟨data, row⟩ :: grants) start
      workspace committed.rows after where
  sublist := batch.sublist.cons_cons data
  leases := by
    intro grant member
    rcases List.mem_cons.mp member with rfl | member
    · have locked : OutboxKey.state outbox.key data.eventId ∈
          (start.record (.state outbox.key data.eventId) (.put row)).locks := by
        simp
      refine ⟨?_, lease, owned, supplied, ?_⟩
      · rw [batch.untouched, Workspace.record_put_writes, Function.update_self]
        intro grant member equal
        injection equal with _ same
        have leased : grant.data ∈ rows :=
          batch.sublist.subset (List.mem_map_of_mem member)
        exact fresh (same ▸ List.mem_map_of_mem leased)
      · have kept : after.state outbox.key data.eventId =
            OutboxStore.state committed.rows outbox.key data.eventId :=
          (batch.kept _ locked).trans (interferes.row_eq locked)
        rw [kept]
        exact taken
    · exact batch.leases grant member
  untouched := by
    intro key other
    rw [batch.untouched key fun grant member => other grant (.tail _ member),
      Workspace.record_put_writes, Function.update_of_ne (other _ (.head _))]
  kept := by
    intro key locked
    have wider : key ∈
        (start.record (.state outbox.key data.eventId) (.put row)).locks :=
      Set.mem_insert_of_mem _ locked
    exact (batch.kept key wider).trans (interferes.row_eq wider)
  advanced := (advanced_of_interferes interferes).trans batch.advanced

theorem yields_leaseRows (outbox : Outbox) (owner : String) (duration : Int)
    (positive : 0 < duration) (now : Option CallerClock)
    (rows : List (OutboxData EventId)) (bytes : Nat)
    (distinct : (rows.map OutboxData.eventId).Nodup)
    (unleased : ∀ data ∈ rows,
      workspace.writes (.state outbox.key data.eventId) = none) :
    (outboxContract released allowed).Yields
      (outbox.leaseRows released owner duration positive now rows bytes)
      (fun grants after final => LeasedBatch outbox owner now rows grants
        workspace after committed.rows final.rows)
      workspace committed := by
  induction rows generalizing bytes workspace committed with
  | nil =>
      unfold Outbox.leaseRows
      exact ⟨.refl [], fun _ absent => (nomatch absent), fun _ _ => rfl, fun _ _ => rfl,
        .refl committed.rows⟩
  | cons data rest induction =>
      have fresh : data.eventId ∉ rest.map OutboxData.eventId :=
        (List.nodup_cons.mp distinct).1
      have restDistinct := (List.nodup_cons.mp distinct).2
      unfold Outbox.leaseRows
      dsimp only
      split
      · exact Contract.yields_fail
      · rw [Contract.yields_bind]
        refine yields_currentTime now fun current supplied => ?_
        rw [Contract.yields_bind]
        refine Contract.yields_write.mpr ?_
        rw [overlay_of_unwritten (unleased data (.head _))]
        dsimp only
        generalize taken : leaseRow _ _ = acquired
        intro later interferes _
        rw [Contract.yields_bind]
        cases acquired with
        | delete => exact absurd taken (leaseRow_ne_delete _ _)
        | keep =>
            refine (induction _ restDistinct fun other member =>
              unleased other (.tail _ member)).mono ?_
            intro grants after final batch
            exact batch.skip interferes
        | put row =>
            refine (induction _ restDistinct ?_).mono ?_
            · intro other member
              rw [Workspace.record_put_writes, Function.update_of_ne]
              · exact unleased other (.tail _ member)
              · intro equal
                injection equal with _ same
                exact fresh (same ▸ List.mem_map_of_mem member)
            · intro grants after final batch
              exact batch.take rfl supplied taken fresh interferes

theorem LeasedBatch.effect {claim : Claim EventId}
    {rows : List (OutboxData EventId)} {start : Workspace (OutboxRow EventId)}
    {before after : OutboxStore EventId}
    (batch : LeasedBatch claim.outbox claim.owner claim.now rows claim.grants start
      workspace before after)
    (unwritten : start.Unwritten) (observed : Advanced claim.snapshot after)
    (least : ∀ data ∈ rows, claim.outbox.LeastIncomplete claim.snapshot data)
    (distinct : (rows.map OutboxData.eventId).Nodup) :
    ClaimEffect claim after (overlay workspace.writes after) where
  observed := observed
  distinct := by
    have sublist := batch.sublist.map OutboxData.eventId
    rw [List.map_map] at sublist
    exact distinct.sublist sublist
  granted := by
    intro grant member
    have leases := batch.leases grant member
    refine ⟨least _ (batch.sublist.subset (List.mem_map_of_mem member)),
      leases.taken, ?_⟩
    simp [OutboxStore.state, overlay, leases.written]
  untouched := by
    intro key other
    apply overlay_of_unwritten
    rw [batch.untouched key other, unwritten]

theorem claim_certified (outbox : Outbox) (permitted : allowed outbox) (owner : String) (limit duration : Int)
    (now : Option CallerClock) :
    (outboxContract released allowed).Certifies
      (outbox.atomicClaim released owner limit duration now) := by
  intro committed _
  unfold Outbox.atomicClaim
  split
  · exact Contract.yields_fail
  split
  · exact Contract.yields_fail
  split
  · rw [Contract.yields_bind]
    refine yields_currentTime now fun current _ => ?_
    rw [Contract.yields_bind]
    refine Contract.yields_selectKeys.mpr fun keys nodup complete => ?_
    rw [Workspace.fresh_unwritten.overlay] at complete ⊢
    intro selected toSelected _
    dsimp only
    rw [Contract.yields_bind]
    refine (yields_lockBatch outbox _ _ Workspace.fresh_unwritten).mono ?_
    rintro rows workspace locked ⟨sublist, unwritten, toLocked⟩
    rw [Contract.yields_bind]
    have distinct := (candidates_distinct nodup complete).sublist
      (sublist.map OutboxData.eventId)
    refine (yields_leaseRows outbox owner duration (by assumption) now rows 0
      distinct fun data _ => by rw [unwritten]).mono ?_
    intro grants after final batch
    have observed := (advanced_of_interferes toSelected).trans
      (toLocked.trans batch.advanced)
    exact ⟨.claimed _ _ (batch.effect unwritten observed
      (fun data member => candidates_least complete (sublist.subset member))
      distinct), permitted⟩
  · exact Contract.yields_fail

/-- Every transaction of the port commits one abstract effect. -/
theorem program_certified (call : OutboxCall EventId) (within : call.Within allowed) :
    (outboxContract released allowed).Certifies (call.program released) := by
  cases call with
  | insert intents => exact insert_certified intents
  | atomicClaim outbox owner limit duration now =>
      exact claim_certified outbox within owner limit duration now
  | complete outbox event owner acknowledged targetFingerprint now =>
      exact complete_certified outbox within event owner acknowledged
        targetFingerprint now
  | release outbox event owner code retryable now =>
      exact release_certified outbox within event owner code retryable now

/-! ## Runs -/

/-- The transactions of the port, by the allowed instances and with any other
arguments. -/
def OutboxTransaction (released : ReleasedOutboxData EventId)
    (allowed : Outbox → Prop)
    (program : OutboxProgram EventId (Outcome EventId)) : Prop :=
  ∃ call : OutboxCall EventId, call.Within allowed ∧ program = call.program released

theorem OutboxTransaction.certified {program : OutboxProgram EventId (Outcome EventId)}
    (transaction : OutboxTransaction released allowed program) :
    (outboxContract released allowed).Certifies program := by
  rcases transaction with ⟨call, within, rfl⟩
  exact program_certified call within

abbrev OutboxServer (EventId : Type) :=
  Server (OutboxRow EventId) OutboxError (Outcome EventId)

variable {rows : OutboxStore EventId} {server next final : OutboxServer EventId}

/-- A property kept by every effect holds in every reachable state. -/
theorem outbox_induction
    (property : Committed (OutboxRow EventId) (Outcome EventId) → Prop)
    (initial : property ⟨rows, []⟩)
    (kept : ∀ {committed outcome after}, property committed →
      Effect released committed.rows outcome after →
      property (committed.extend outcome after))
    (reachable : Reachable (OutboxTransaction released allowed) rows server) :
    property server.committed :=
  (outboxContract released allowed).reachable_induction property
    (fun _ transaction => transaction.certified) trivial initial
    (fun _ holds effect => kept holds effect.1) reachable

/-- A step leaves the committed state alone or commits one effect. -/
theorem outbox_step
    (reachable : Reachable (OutboxTransaction released allowed) rows server)
    (step : Step (OutboxTransaction released allowed) server next) :
    next.committed = server.committed ∨
      ∃ outcome after, Effect released server.committed.rows outcome after ∧
        outcome.Within allowed ∧
        next.committed = server.committed.extend outcome after := by
  have sound := (outboxContract released allowed).reachable_sound
    (fun _ transaction => transaction.certified) trivial reachable
  rcases sound.step_effect step with same | ⟨outcome, after, effect, equal⟩
  · exact .inl same
  · exact .inr ⟨outcome, after, effect.1, effect.2, equal⟩

/-- Committed progress is kept for the rest of a run. -/
theorem outbox_advanced
    (reachable : Reachable (OutboxTransaction released allowed) rows server)
    (run : Relation.ReflTransGen (Step (OutboxTransaction released allowed)) server
      final) :
    Advanced server.committed.rows final.committed.rows := by
  induction run with
  | refl => exact .refl server.committed.rows
  | tail rest step induction =>
      rcases outbox_step (reachable.trans rest) step with
        same | ⟨outcome, after, effect, _, equal⟩
      · rw [same]
        exact induction
      · rw [equal]
        exact induction.trans effect.advanced

/-! ## A sample outbox -/

section Sample

def sampleReleased : ReleasedOutboxData Nat := ⟨fun data => data.sourceResource, fun _ => 0⟩

def sampleOutbox : Outbox :=
  ⟨⟨"tenant", []⟩, "events", ⟨"index", "structured", "items", "v1", []⟩, 2, 10, 1000,
    by decide, by decide⟩

def sampleIntent : OutboxData Nat where
  formatVersion := "1"
  eventId := 7
  sourceCatalog := "structured"
  sourceResource := "items"
  sourceSchema := "v1"
  sourceIdentity := .string "item"
  sourceVersion := .null
  mutationKind := "put"
  payload := .null
  immutableReference := .null
  targetLabels := []
  occurredAt := 0
  operationContext := .null
  digest := ""

/-- One intent, in the given state. -/
def sampleRows (state : Option StateRow) : OutboxStore Nat
  | .intent scope resource event =>
      if same : scope = sampleOutbox.scope ∧ resource = sampleOutbox.resource ∧ 7 = event then
        some ⟨sampleIntent, same.2.2⟩
      else none
  | .state key event => if key = sampleOutbox.key ∧ event = 7 then state else none
  | .checkpoint _ _ => none

def sampleLease (instant : Int) : Lease :=
  ⟨"worker", instant, instant + 10, lt_add_of_pos_right instant (by decide)⟩

variable {state : Option StateRow} {instant : Int} {row : StateRow}

/-- An intent that nobody has claimed leaves no progress. -/
theorem sample_unclaimed : sampleRows none = OutboxStore.ofIntents (sampleRows none).intent := by
  funext key
  cases key with
  | intent | checkpoint => rfl
  | state key event => exact ite_self none

theorem sample_claimable {lease : Lease} (taken : leaseRow lease state = .put row) :
    sampleOutbox.candidates (sampleRows state) [sampleIntent] lease.acquiredAt =
      [sampleIntent] := by
  have joined : sampleOutbox.joined (sampleRows state) sampleIntent.eventId = state := by
    simp [Outbox.joined, OutboxStore.state, sampleRows, sampleIntent]
  have free := (leaseRow_put taken).1
  simp [Outbox.candidates, Outbox.blocks, joined, free, Earlier.irrefl]

theorem sample_wanted (key : OutboxKey Nat) :
    key ∈ [OutboxKey.intent sampleOutbox.scope sampleOutbox.resource 7] ↔
      sampleOutbox.wanted (sampleRows state) key = true := by
  rw [wanted_iff, List.mem_singleton]
  constructor
  · rintro rfl
    exact ⟨sampleIntent, rfl, rfl, rfl⟩
  · rintro ⟨data, rfl, visible⟩
    have stored := visible.stored
    simp only [OutboxStore.data, OutboxStore.intent, sampleRows] at stored
    split at stored
    · rename_i same
      rw [same.2.2]
    · cases stored

theorem sample_lease_may (taken : leaseRow (sampleLease instant) state = .put row)
    {workspace : Workspace (OutboxRow Nat)} (unwritten : workspace.Unwritten) :
    (sampleOutbox.leaseRows sampleReleased "worker" 10 (by decide)
      (some ⟨instant, true⟩) [sampleIntent] 0).May (sampleRows state) ∅
      (fun grants after => grants = [⟨sampleIntent, row⟩] ∧
        overlay after.writes (sampleRows state) = sampleRows (some row))
      (fun _ _ => False) workspace := by
  have stored : overlay workspace.writes (sampleRows state)
      (.state sampleOutbox.key sampleIntent.eventId) = state := by
    rw [unwritten.overlay]
    simp [sampleRows, sampleIntent]
  unfold Outbox.leaseRows
  refine Program.may_bind.mpr ⟨Set.notMem_empty _, ?_⟩
  rw [stored]
  have made : leaseRow ⟨"worker", instant, instant + 10,
      lt_add_of_pos_right instant (by decide)⟩ state = .put row := taken
  rw [made]
  refine ⟨rfl, ?_⟩
  rw [overlay_setState, unwritten.overlay]
  funext key
  cases key with
  | intent scope resource event => rfl
  | checkpoint key partition => rfl
  | state key event =>
      by_cases same : sampleOutbox.key = key ∧ sampleIntent.eventId = event
      · rcases same with ⟨rfl, rfl⟩
        exact (OutboxStore.state_setState_self _ _ _ _).trans (by simp [sampleRows, sampleIntent])
      · refine (OutboxStore.state_setState_of_ne _ _ _ _ same).trans ?_
        have other : ¬(key = sampleOutbox.key ∧ event = 7) :=
          fun equal => same ⟨equal.1.symm, equal.2.symm⟩
        simp [OutboxStore.state, sampleRows, other]

/-- The claim of the sample intent, as `row`. -/
def sampleClaim (state : Option StateRow) (instant : Int) (row : StateRow) : Claim Nat :=
  ⟨sampleOutbox, "worker", some ⟨instant, true⟩, sampleRows state, [⟨sampleIntent, row⟩]⟩

theorem sample_claim_may (taken : leaseRow (sampleLease instant) state = .put row) :
    (sampleOutbox.atomicClaim sampleReleased "worker" 1 10 (some ⟨instant, true⟩)).May
      (sampleRows state) ∅
      (fun result workspace => result = .claimed (sampleClaim state instant row) ∧
        overlay workspace.writes (sampleRows state) = sampleRows (some row))
      (fun _ _ => False) .fresh := by
  have listed : intentsOf (sampleRows state)
      [OutboxKey.intent sampleOutbox.scope sampleOutbox.resource 7] = [sampleIntent] := rfl
  have chosen : sampleOutbox.candidates (sampleRows state) [sampleIntent] instant =
      [sampleIntent] := sample_claimable taken
  have time : currentTime (some ⟨instant, true⟩) =
      (pure instant : OutboxProgram Nat Int) := rfl
  have leased : ∀ workspace : Workspace (OutboxRow Nat), workspace.Unwritten →
      (sampleOutbox.leaseRows sampleReleased "worker" 10 (by decide)
        (some ⟨instant, true⟩) [sampleIntent] 0 >>= fun grants =>
        pure (Outcome.claimed ⟨sampleOutbox, "worker", some ⟨instant, true⟩,
          sampleRows state, grants⟩)).May (sampleRows state) ∅
        (fun result workspace => result = .claimed (sampleClaim state instant row) ∧
          overlay workspace.writes (sampleRows state) = sampleRows (some row))
        (fun _ _ => False) workspace := by
    intro workspace unwritten
    refine Program.may_bind.mpr ((sample_lease_may taken unwritten).mono ?_ fun _ _ => id)
    rintro grants after ⟨rfl, written⟩
    exact ⟨rfl, written⟩
  unfold Outbox.atomicClaim
  rw [if_neg (by decide), if_neg (by decide), dif_pos (by decide), time,
    Program.may_bind]
  refine Program.may_bind.mpr ⟨_, List.nodup_singleton _, sample_wanted, ?_⟩
  rw [Workspace.fresh_unwritten.overlay]
  simp only [Program.May]
  rw [listed, chosen]
  refine Program.may_bind.mpr (.inr ⟨Set.notMem_empty _, ?_⟩)
  exact leased _ (Workspace.fresh_unwritten.lock _)

/-- An idle server runs a call that may finish, and commits it. -/
theorem sample_run {call : OutboxCall Nat} {allowed : Outbox → Prop} (within : call.Within allowed)
    {rows : OutboxStore Nat} {post : Outcome Nat → Workspace (OutboxRow Nat) → Prop}
    (may : (call.program sampleReleased).May rows ∅ post (fun _ _ => False) .fresh)
    (server : OutboxServer Nat) (idle : server.transactions = fun _ => none)
    (stored : server.committed.rows = rows) :
    ∃ next outcome workspace, Relation.ReflTransGen
        (StepFrom (OutboxTransaction sampleReleased allowed) server.committed) server next ∧
      next.transactions = (fun _ => none) ∧ post outcome workspace ∧
      next.committed = server.committed.extend outcome (overlay workspace.writes rows) := by
  have nobody : server.heldByOthers 0 = ∅ := by
    ext key
    simp [Server.heldByOthers, idle]
  rw [← nobody, ← stored] at may
  have admitted : OutboxTransaction sampleReleased allowed (call.program sampleReleased) :=
    ⟨call, within, rfl⟩
  obtain ⟨outcome, workspace, met, run⟩ := Server.run_may_from admitted (congrFun idle 0) may
  exact ⟨_, outcome, workspace, run, idle, met, by rw [stored]⟩

/-- One claim of the sample intent, from its begin to its commit. -/
theorem sample_claim_run {allowed : Outbox → Prop} (within : allowed sampleOutbox)
    (taken : leaseRow (sampleLease instant) state = .put row)
    (server : OutboxServer Nat) (idle : server.transactions = fun _ => none)
    (stored : server.committed.rows = sampleRows state) :
    ∃ next, Relation.ReflTransGen
        (StepFrom (OutboxTransaction sampleReleased allowed) server.committed) server next ∧
      next.transactions = (fun _ => none) ∧ next.committed.rows = sampleRows (some row) ∧
      next.committed.log =
        server.committed.log ++ [.claimed (sampleClaim state instant row)] := by
  have call : (.atomicClaim sampleOutbox "worker" 1 10 (some ⟨instant, true⟩) :
      OutboxCall Nat).Within allowed := within
  obtain ⟨next, _, workspace, run, idle, ⟨rfl, written⟩, committed⟩ :=
    sample_run call (sample_claim_may taken) server idle stored
  exact ⟨next, run, idle, by rw [committed]; exact written, by rw [committed]; rfl⟩

def sampleAttempt (attempt : Nat) (attempted : 0 < attempt) (instant : Int) : StateRow :=
  ⟨attempt, attempted, .leased (sampleLease instant)⟩

def sampleFingerprint : String :=
  "sha256:0000000000000000000000000000000000000000000000000000000000000000"

/-- The completion of the sample intent, the first of its partition. -/
def sampleCompletion (instant : Int) : Completion Nat :=
  ⟨sampleOutbox, "worker", some ⟨instant, true⟩, sampleIntent, "items",
    ⟨1, Nat.one_pos, 7, .null, sampleFingerprint, instant⟩, instant⟩

theorem sample_leased_may {attempt : Nat} {attempted : 0 < attempt} {start : Int}
    (live : instant < start + 10)
    {post : OutboxData Nat × StateRow × Int → Workspace (OutboxRow Nat) → Prop}
    (holds : ∀ workspace : Workspace (OutboxRow Nat), workspace.Unwritten →
      post (sampleIntent, sampleAttempt attempt attempted start, instant) workspace) :
    (sampleOutbox.leased 7 "worker" (some ⟨instant, true⟩)).May
      (sampleRows (some (sampleAttempt attempt attempted start))) ∅ post (fun _ _ => False)
      .fresh := by
  have wanted : sampleOutbox.wanted (sampleRows (some (sampleAttempt attempt attempted start)))
      (.intent sampleOutbox.scope sampleOutbox.resource 7) = true :=
    (sample_wanted _).mp (List.mem_singleton_self _)
  have kept : leaseLost "worker" instant (sampleAttempt attempt attempted start) = false := by
    simp [leaseLost, sampleAttempt, sampleLease, live]
  unfold Outbox.leased
  refine Program.may_bind.mpr (Program.may_bind.mpr ?_)
  change Program.May (if sampleOutbox.wanted _ _ = false then _ else _) _ _ _ _ _
  rw [Workspace.fresh_unwritten.overlay, if_neg (by rw [wanted]; exact Bool.noConfusion)]
  refine Program.may_bind.mpr ⟨Set.notMem_empty _, ?_⟩
  change Program.May (if leaseLost "worker" instant (sampleAttempt attempt attempted start) = true
    then _ else _) _ _ _ _ _
  rw [if_neg (by rw [kept]; exact Bool.noConfusion)]
  exact holds _ (Workspace.fresh_unwritten.lockRow _ _)

theorem sample_complete_may {attempt : Nat} {attempted : 0 < attempt} {start : Int}
    (live : instant < start + 10) :
    (sampleOutbox.complete sampleReleased 7 "worker" .null sampleFingerprint
      (some ⟨instant, true⟩)).May (sampleRows (some (sampleAttempt attempt attempted start))) ∅
      (fun result _ => result = .completed (sampleCompletion instant)) (fun _ _ => False)
      .fresh := by
  unfold Outbox.complete
  rw [if_neg (by decide)]
  refine Program.may_bind.mpr (sample_leased_may live fun workspace unwritten => ?_)
  dsimp only
  have agreed : ¬ (Json.null ≠ sampleIntent.sourceVersion) := not_not.mpr rfl
  rw [if_neg agreed]
  refine Program.may_bind.mpr (Program.may_bind.mpr ⟨Set.notMem_empty _, ?_⟩)
  rw [unwritten.overlay]
  refine Program.may_bind.mpr (Program.may_bind.mpr ⟨Set.notMem_empty _, ?_⟩)
  have finished : ∀ state row, row = some (sampleAttempt attempt attempted start) →
      finishLease "worker" instant state row = .put ⟨attempt, attempted, state⟩ := by
    rintro state row rfl
    simp [finishLease, sampleAttempt, sampleLease, live]
  have stays : ∀ saved, overlay (workspace.record (.checkpoint sampleOutbox.key "items")
      (.put saved)).writes (sampleRows (some (sampleAttempt attempt attempted start)))
      (.state sampleOutbox.key 7) = some (sampleAttempt attempt attempted start) := by
    intro saved
    rw [overlay_setCheckpoint, unwritten.overlay]
    rfl
  simp only [Program.May]
  rw [finished _ _ ?_]
  · exact rfl
  · exact stays _

/-- The sample intent is claimed, claimed again once its lease has expired, and
completed. -/
def sampleLog : List (Outcome Nat) :=
  [.claimed (sampleClaim none 0 (sampleAttempt 1 Nat.one_pos 0)),
    .claimed (sampleClaim (some (sampleAttempt 1 Nat.one_pos 0)) 100
      (sampleAttempt 2 Nat.two_pos 100)),
    .completed (sampleCompletion 105)]

theorem sample_worked {allowed : Outbox → Prop} (within : allowed sampleOutbox) :
    ∃ server, Reachable (OutboxTransaction sampleReleased allowed) (sampleRows none) server ∧
      server.committed.log = sampleLog := by
  have taken : leaseRow (sampleLease 0) none = .put (sampleAttempt 1 Nat.one_pos 0) := rfl
  have retaken : leaseRow (sampleLease 100) (some (sampleAttempt 1 Nat.one_pos 0)) =
      .put (sampleAttempt 2 Nat.two_pos 100) := rfl
  have live : (105 : Int) < 100 + 10 := by decide
  have completes : (.complete sampleOutbox 7 "worker" .null sampleFingerprint
      (some ⟨105, true⟩) : OutboxCall Nat).Within allowed := within
  obtain ⟨first, toFirst, idle, stored, logged⟩ :=
    sample_claim_run within taken (.initial (sampleRows none)) rfl rfl
  obtain ⟨second, toSecond, idle, stored, relogged⟩ :=
    sample_claim_run within retaken first idle stored
  obtain ⟨third, _, _, toThird, _, rfl, committed⟩ :=
    sample_run completes (sample_complete_may live) second idle stored
  refine ⟨third, (StepFrom.steps toFirst).trans
    ((StepFrom.steps toSecond).trans (StepFrom.steps toThird)), ?_⟩
  rw [committed]
  change second.committed.log ++ _ = _
  rw [relogged, logged]
  rfl

end Sample

end MeridianPostgreSQL.Projection
