import MeridianPostgreSQL.Projection.Storage

/-! # The durable outbox port

`PostgreSQLOutbox` as read-committed transactions. Each method is one
transaction; a raised error leaves it unfinished and the server rolls it
back. -/

namespace MeridianPostgreSQL.Projection

open ReadCommitted

/-! ## Errors and outcomes -/

inductive OutboxError where
  | valueError (message : String)
  | resultLimit (message : String)
  | notFound (message : String)
  | leaseLost (message : String)
  | checkpointConflict (message : String)

/-- The part of a `ProjectionSpec` the adapter reads. -/
structure ProjectionSpec where
  name : String
  sourceCatalog : String
  source : String
  sourceSchema : String
  targetLabels : List String
deriving DecidableEq

/-- One `PostgreSQLOutbox` with the runtime limits it enforces. -/
structure Outbox where
  scope : ScopeKey
  resource : String
  spec : ProjectionSpec
  poisonThreshold : Nat
  maxBatchSize : Nat
  maxResultBytes : Nat
  thresholdPositive : 0 < poisonThreshold
  batchPositive : 0 < maxBatchSize

def Outbox.key (outbox : Outbox) : ProjectionKey where
  scope := outbox.scope
  resource := outbox.resource
  projection := outbox.spec.name

@[simp] theorem Outbox.key_scope (outbox : Outbox) :
    outbox.key.scope = outbox.scope := rfl

@[simp] theorem Outbox.key_resource (outbox : Outbox) :
    outbox.key.resource = outbox.resource := rfl

/-- A `now` argument. -/
structure CallerClock where
  instant : Int
  utc : Bool

/-- A record a claim returns: the intent and the state row it leased. -/
structure Grant (EventId : Type) where
  data : OutboxData EventId
  row : StateRow

/-- A finished claim, with the snapshot its select statement saw. -/
structure Claim (EventId : Type) where
  outbox : Outbox
  owner : String
  now : Option CallerClock
  snapshot : OutboxStore EventId
  grants : List (Grant EventId)

/-- A finished completion, with the clock reading of its final update. -/
structure Completion (EventId : Type) where
  outbox : Outbox
  owner : String
  now : Option CallerClock
  data : OutboxData EventId
  partition : String
  checkpoint : CheckpointRow EventId
  finalReading : Int

/-- A finished release, with the clock reading of its final update. -/
structure Release (EventId : Type) where
  outbox : Outbox
  owner : String
  now : Option CallerClock
  data : OutboxData EventId
  row : StateRow
  finalReading : Int

inductive Outcome (EventId : Type) where
  | inserted
  | claimed (claim : Claim EventId)
  | completed (completion : Completion EventId)
  | released (release : Release EventId)

/-- The outbox instance behind an outcome is allowed. -/
def Outcome.Within {EventId : Type} (outcome : Outcome EventId)
    (allowed : Outbox → Prop) : Prop :=
  match outcome with
  | .inserted => True
  | .claimed claim => allowed claim.outbox
  | .completed completion => allowed completion.outbox
  | .released release => allowed release.outbox

abbrev OutboxProgram (EventId : Type) :=
  Program (OutboxRow EventId) OutboxError

variable {EventId : Type}

/-! ## Statements -/

abbrev lockIntent (scope : ScopeKey) (resource : String) (event : EventId) :
    OutboxProgram EventId (Option { data : OutboxData EventId // data.eventId = event }) :=
  Program.selectForUpdate (OutboxKey.intent scope resource event)

abbrev skipLockedIntent (scope : ScopeKey) (resource : String) (event : EventId) :
    OutboxProgram EventId Bool :=
  Program.skipLocked (.intent scope resource event)

abbrev writeIntent (scope : ScopeKey) (resource : String) (event : EventId)
    (change : Option { data : OutboxData EventId // data.eventId = event } →
      Change { data : OutboxData EventId // data.eventId = event }) :
    OutboxProgram EventId (Change { data : OutboxData EventId // data.eventId = event }) :=
  Program.write (OutboxKey.intent scope resource event) change

abbrev writeState (key : ProjectionKey) (event : EventId)
    (change : Option StateRow → Change StateRow) :
    OutboxProgram EventId (Change StateRow) :=
  Program.write (OutboxKey.state key event) change

abbrev writeCheckpoint (key : ProjectionKey) (partition : String)
    (change : Option (CheckpointRow EventId) → Change (CheckpointRow EventId)) :
    OutboxProgram EventId (Change (CheckpointRow EventId)) :=
  Program.write (OutboxKey.checkpoint key partition) change

/-! ## Selection -/

/-- `_selection`: the intent's source matches and carries every label. Tenant
and scope are part of the intent's key. -/
def ProjectionSpec.selects (spec : ProjectionSpec) (data : OutboxData EventId) :
    Bool :=
  data.sourceCatalog == spec.sourceCatalog &&
    data.sourceResource == spec.source &&
    data.sourceSchema == spec.sourceSchema &&
    spec.targetLabels.all fun label => data.targetLabels.contains label

/-- The state a select statement joins to an intent. -/
def Outbox.joined (outbox : Outbox) (store : OutboxStore EventId)
    (event : EventId) : Option StateRow :=
  store.state outbox.key event

/-- The matching intents of the outbox Resource. -/
def Outbox.wanted (outbox : Outbox) (store : OutboxStore EventId) :
    OutboxKey EventId → Bool
  | .intent scope resource event =>
      scope == outbox.scope && (resource == outbox.resource &&
        match store.intent scope resource event with
        | some data => outbox.spec.selects data.val
        | none => false)
  | _ => false

/-- The intents behind the keys of one select statement. -/
def intentsOf (store : OutboxStore EventId) (keys : List (OutboxKey EventId)) :
    List (OutboxData EventId) :=
  keys.filterMap fun
    | .intent scope resource event =>
        (store.intent scope resource event).map Subtype.val
    | _ => none

/-- `s.state IS NULL OR s.state = 'RETRYABLE' OR (s.state = 'LEASED' AND
s.expires_at <= %s)` -/
def claimable (row : Option StateRow) (current : Int) : Bool :=
  match row with
  | none => true
  | some row =>
      match row.state with
      | .retryable _ => true
      | .leased lease => lease.expiresAt ≤ current
      | _ => false

/-- `COALESCE(ps.state, 'PENDING') <> 'COMPLETED'` -/
def incomplete (row : Option StateRow) : Bool :=
  match row with
  | none => true
  | some row => !row.isCompleted

section Order

variable [LinearOrder EventId]

/-- An intent of the same identity that comes first and is not completed. -/
def Outbox.blocks (outbox : Outbox) (store : OutboxStore EventId)
    (prior data : OutboxData EventId) : Bool :=
  decide (SameIdentity prior data) && (decide (Earlier prior data) &&
    incomplete (outbox.joined store prior.eventId))

/-- The intents one select statement may lease, in `ORDER BY occurredAt,
eventId`. -/
def Outbox.candidates (outbox : Outbox) (store : OutboxStore EventId)
    (intents : List (OutboxData EventId)) (current : Int) :
    List (OutboxData EventId) :=
  (intents.filter fun data =>
    claimable (outbox.joined store data.eventId) current &&
      !intents.any fun prior => outbox.blocks store prior data).mergeSort
    fun left right =>
      toLex (left.occurredAt, left.eventId) ≤
        toLex (right.occurredAt, right.eventId)

end Order

/-! ## Clock -/

def currentTime (now : Option CallerClock) : OutboxProgram EventId Int :=
  match now with
  | some reading =>
      if reading.utc then pure reading.instant
      else .fail (.valueError "now must be UTC")
  | none => .timestamp

/-- `COALESCE(%s::timestamptz, clock_timestamp())` -/
def finalTime (now : Option CallerClock) : OutboxProgram EventId Int :=
  match now with
  | some reading => pure reading.instant
  | none => .timestamp

/-! ## Claim -/

/-- The upsert of a claim: insert a first attempt, or take over a retryable or
expired row. -/
def leaseRow (lease : Lease) (row : Option StateRow) : Change StateRow :=
  match row with
  | none => .put ⟨1, Nat.one_pos, .leased lease⟩
  | some row =>
      match row.state with
      | .retryable _ => .put ⟨row.attempt + 1, Nat.succ_pos _, .leased lease⟩
      | .leased held =>
          if held.expiresAt ≤ lease.acquiredAt then
            .put ⟨row.attempt + 1, Nat.succ_pos _, .leased lease⟩
          else .keep
      | _ => .keep

/-- `FOR UPDATE OF i SKIP LOCKED` under a limit. -/
def Outbox.lockBatch (outbox : Outbox) :
    List (OutboxData EventId) → Nat → OutboxProgram EventId (List (OutboxData EventId))
  | [], _ => pure []
  | _, 0 => pure []
  | data :: rest, limit + 1 => do
      let locked ← skipLockedIntent outbox.scope outbox.resource data.eventId
      if locked then
        let others ← outbox.lockBatch rest limit
        pure (data :: others)
      else
        outbox.lockBatch rest (limit + 1)

/-- The loop over the selected rows. The state is decided again by the upsert,
in a statement of its own. -/
def Outbox.leaseRows (outbox : Outbox) (released : ReleasedOutboxData EventId)
    (owner : String) (duration : Int) (positive : 0 < duration)
    (now : Option CallerClock) :
    List (OutboxData EventId) → Nat → OutboxProgram EventId (List (Grant EventId))
  | [], _ => pure []
  | data :: rest, bytes => do
      let resultBytes := bytes + released.jsonSize data
      if outbox.maxResultBytes < resultBytes then
        Program.fail (.resultLimit
          "outbox claim exceeds the configured result byte limit")
      else
        let current ← currentTime now
        let lease : Lease :=
          ⟨owner, current, current + duration, lt_add_of_pos_right current positive⟩
        let acquired ← writeState outbox.key data.eventId (leaseRow lease)
        let others ← outbox.leaseRows released owner duration positive now rest
          resultBytes
        match acquired with
        | .put row => pure (⟨data, row⟩ :: others)
        | _ => pure others

def Outbox.atomicClaim [LinearOrder EventId] (outbox : Outbox)
    (released : ReleasedOutboxData EventId) (owner : String) (limit : Int)
    (duration : Int) (now : Option CallerClock) :
    OutboxProgram EventId (Outcome EventId) :=
  if owner = "" then .fail (.valueError "owner must be non-empty")
  else if ¬(1 ≤ limit ∧ limit ≤ outbox.maxBatchSize) then
    .fail (.valueError "limit must be positive and within max_batch_size")
  else if positive : 0 < duration then do
    let current ← currentTime now
    let (snapshot, keys) ← Program.selectKeys outbox.wanted
    let rows ← outbox.lockBatch
      (outbox.candidates snapshot (intentsOf snapshot keys) current) limit.toNat
    let grants ← outbox.leaseRows released owner duration positive now rows 0
    pure (.claimed ⟨outbox, owner, now, snapshot, grants⟩)
  else .fail (.valueError "lease_duration must be positive")

/-! ## Complete and release -/

/-- The locked read of one event. A row found by the snapshot is checked again
once its lock is granted. The joined state may be stale by then, so it is read
again under the lock. -/
def Outbox.load (outbox : Outbox) (event : EventId) :
    OutboxProgram EventId (OutboxData EventId × Option StateRow) := do
  let missing := OutboxError.notFound "outbox event was not found in scope"
  let snapshot : OutboxStore EventId ← Program.select
  if outbox.wanted snapshot (.intent outbox.scope outbox.resource event) = false then
    .fail missing
  else
    let row ← lockIntent outbox.scope outbox.resource event
    match row with
    | none => .fail missing
    | some data =>
        if outbox.spec.selects data.val then do
          let store : OutboxStore EventId ← Program.select
          pure (data.val,
            (outbox.joined store event).or (outbox.joined snapshot event))
        else .fail missing

/-- `row.get("state") != "LEASED" or row["owner"] != owner or
row["expires_at"] <= current` -/
def leaseLost (owner : String) (current : Int) (row : StateRow) : Bool :=
  match row.state with
  | .leased lease => lease.owner ≠ owner || lease.expiresAt ≤ current
  | _ => true

/-- Load an event and check that the caller holds its lease. -/
def Outbox.leased (outbox : Outbox) (event : EventId) (owner : String)
    (now : Option CallerClock) :
    OutboxProgram EventId (OutboxData EventId × StateRow × Int) := do
  let (data, state) ← outbox.load event
  let current ← currentTime now
  let lost := OutboxError.leaseLost
    "outbox lease requires the current non-expired owner"
  match state with
  | none => .fail lost
  | some row =>
      if leaseLost owner current row then .fail lost
      else pure (data, row, current)

/-- The final update of complete and release: it finds the row only while the
caller's lease is live. -/
def finishLease (owner : String) (reading : Int) (state : OutboxState)
    (row : Option StateRow) : Change StateRow :=
  match row with
  | none => .keep
  | some row =>
      match row.state with
      | .leased lease =>
          if lease.owner = owner ∧ reading < lease.expiresAt then
            .put { row with state := state }
          else .keep
      | _ => .keep

/-- The checkpoint upsert: insert, or replace the revision that was read. -/
def advanceCheckpoint (previous : Nat) (saved : CheckpointRow EventId)
    (row : Option (CheckpointRow EventId)) : Change (CheckpointRow EventId) :=
  match row with
  | none => .put saved
  | some row => if row.revision = previous then .put saved else .keep

/-- `sha256:` and 64 lower-case hexadecimal digits. -/
def isFingerprint (text : String) : Bool :=
  let characters := text.toList
  characters.take 7 == "sha256:".toList && (characters.length == 71 &&
    (characters.drop 7).all fun character => "0123456789abcdef".toList.contains character)

/-- The stored revision of a partition, zero without a checkpoint row. -/
def checkpointRevision (row : Option (CheckpointRow EventId)) : Nat :=
  match row with
  | none => 0
  | some row => row.revision

def Outbox.complete (outbox : Outbox) (released : ReleasedOutboxData EventId)
    (event : EventId) (owner : String) (acknowledged : Json)
    (targetFingerprint : String) (now : Option CallerClock) :
    OutboxProgram EventId (Outcome EventId) :=
  if isFingerprint targetFingerprint = false then
    .fail (.valueError "target_fingerprint must be a SHA256 fingerprint")
  else do
    let (data, _, current) ← outbox.leased event owner now
    -- JSON equality keeps Python's type test: an int is never a float or string.
    if acknowledged ≠ data.sourceVersion then
      Program.fail (.checkpointConflict
        "target acknowledgement does not match the exact source version")
    else
      let partition := released.partitionKey data
      let store : OutboxStore EventId ← Program.select
      let previous := checkpointRevision (store.checkpoint outbox.key partition)
      let saved : CheckpointRow EventId := {
        revision := previous + 1
        advanced := Nat.succ_pos previous
        eventId := event
        sourceVersion := data.sourceVersion
        targetFingerprint := targetFingerprint
        advancedAt := current }
      let advanced ← writeCheckpoint outbox.key partition
        (advanceCheckpoint previous saved)
      match advanced with
      | .put _ =>
          let reading ← finalTime now
          let changed ← writeState outbox.key event
            (finishLease owner reading (.completed targetFingerprint current))
          match changed with
          | .put _ =>
              pure (.completed ⟨outbox, owner, now, data, partition, saved, reading⟩)
          | _ => Program.fail (.leaseLost
              "lease expired before completion; checkpoint rolled back")
      | _ => Program.fail (.checkpointConflict
          "checkpoint revision changed concurrently")

/-- The stored failure keeps the classification only. -/
def redactedFailure (code : String) (current : Int) : OutboxFailure where
  code := String.ofList (code.toList.take 128)
  cause := "projection failed (details redacted)"
  failedAt := current

def Outbox.release (outbox : Outbox) (event : EventId) (owner : String)
    (code : String) (retryable : Bool) (now : Option CallerClock) :
    OutboxProgram EventId (Outcome EventId) := do
  let (data, row, current) ← outbox.leased event owner now
  let failure := redactedFailure code current
  let state : OutboxState :=
    if retryable && row.attempt < outbox.poisonThreshold then .retryable failure
    else .quarantined failure
  let reading ← finalTime now
  let saved ← writeState outbox.key event (finishLease owner reading state)
  match saved with
  | .put row => pure (.released ⟨outbox, owner, now, data, row, reading⟩)
  | _ => Program.fail (.leaseLost "lease expired before release")

/-! ## Intents -/

/-- The Writer's transaction: insert-only intents. A duplicate event id fails
the insert and with it the transaction. -/
def insertIntents :
    List (ScopeKey × String × OutboxData EventId) →
      OutboxProgram EventId (Outcome EventId)
  | [] => pure .inserted
  | (scope, resource, data) :: rest => do
      let made ← writeIntent scope resource data.eventId fun row =>
        match row with
        | none => .put ⟨data, rfl⟩
        | some _ => .keep
      match made with
      | .put _ => insertIntents rest
      | _ => Program.fail (.valueError "duplicate event id")

/-! ## Calls -/

/-- The transactions that may touch an outbox, with any arguments. -/
inductive OutboxCall (EventId : Type) where
  | insert (intents : List (ScopeKey × String × OutboxData EventId))
  | atomicClaim (outbox : Outbox) (owner : String) (limit duration : Int)
      (now : Option CallerClock)
  | complete (outbox : Outbox) (event : EventId) (owner : String)
      (acknowledged : Json) (targetFingerprint : String)
      (now : Option CallerClock)
  | release (outbox : Outbox) (event : EventId) (owner : String) (code : String)
      (retryable : Bool) (now : Option CallerClock)

/-- Every outbox instance the call uses is allowed. -/
def OutboxCall.Within (call : OutboxCall EventId) (allowed : Outbox → Prop) : Prop :=
  match call with
  | .insert _ => True
  | .atomicClaim outbox _ _ _ _ => allowed outbox
  | .complete outbox _ _ _ _ _ => allowed outbox
  | .release outbox _ _ _ _ _ => allowed outbox

def OutboxCall.program [LinearOrder EventId]
    (released : ReleasedOutboxData EventId) :
    OutboxCall EventId → OutboxProgram EventId (Outcome EventId)
  | .insert intents => insertIntents intents
  | .atomicClaim outbox owner limit duration now =>
      outbox.atomicClaim released owner limit duration now
  | .complete outbox event owner acknowledged targetFingerprint now =>
      outbox.complete released event owner acknowledged targetFingerprint now
  | .release outbox event owner code retryable now =>
      outbox.release event owner code retryable now

end MeridianPostgreSQL.Projection
