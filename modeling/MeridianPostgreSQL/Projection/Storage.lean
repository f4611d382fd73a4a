import Mathlib.Data.Prod.Lex
import Mathlib.Algebra.Order.Ring.Rat
import MeridianPostgreSQL.Foundation.ReadCommitted
import MeridianPostgreSQL.Json

/-! # Durable outbox rows

The immutable intents of an outbox Resource, the lease state of each intent
under each projection, and one checkpoint per partition. The check
constraints of the metadata tables are fields or cases of the row types, so a
row that violates one cannot be built. -/

namespace MeridianPostgreSQL.Projection

open ReadCommitted

/-! ## Intents -/

/-- Tenant and configured scope, stored as one `jsonb` value. -/
structure ScopeKey where
  tenant : String
  scope : List (String × String)
deriving DecidableEq

/-- The fields of an `OutboxDataV1` intent. Times are microseconds. -/
structure OutboxData (EventId : Type) where
  formatVersion : String
  eventId : EventId
  sourceCatalog : String
  sourceResource : String
  sourceSchema : String
  sourceIdentity : Json
  sourceVersion : Json
  mutationKind : String
  payload : Json
  immutableReference : Json
  targetLabels : List String
  occurredAt : Int
  operationContext : Json
  digest : String

/-- What the adapter takes from the released `OutboxDataV1` class: the
partition an intent belongs to and its size as JSON. -/
structure ReleasedOutboxData (EventId : Type) where
  partitionKey : OutboxData EventId → String
  jsonSize : OutboxData EventId → Nat

/-! ## Lease state -/

/-- An owner's lease. The state table checks that it expires after it was
acquired. -/
structure Lease where
  owner : String
  acquiredAt : Int
  expiresAt : Int
  expiresLater : acquiredAt < expiresAt

structure OutboxFailure where
  code : String
  cause : String
  failedAt : Int

/-- A stored state. An intent without a state row is pending. -/
inductive OutboxState where
  | leased (lease : Lease)
  | completed (targetFingerprint : String) (completedAt : Int)
  | retryable (failure : OutboxFailure)
  | quarantined (failure : OutboxFailure)

structure StateRow where
  attempt : Nat
  attempted : 0 < attempt
  state : OutboxState

namespace StateRow

def Completed (row : StateRow) : Prop :=
  ∃ fingerprint time, row.state = .completed fingerprint time

def Quarantined (row : StateRow) : Prop :=
  ∃ failure, row.state = .quarantined failure

def Leased (row : StateRow) : Prop :=
  ∃ lease, row.state = .leased lease

def isCompleted (row : StateRow) : Bool :=
  match row.state with
  | .completed _ _ => true
  | _ => false

@[simp] theorem isCompleted_iff (row : StateRow) :
    row.isCompleted = true ↔ row.Completed := by
  cases state : row.state <;> simp [isCompleted, Completed, state]

end StateRow

/-! ## Checkpoints -/

structure CheckpointRow (EventId : Type) where
  revision : Nat
  advanced : 0 < revision
  eventId : EventId
  sourceVersion : Json
  targetFingerprint : String
  advancedAt : Int

/-! ## Tables -/

/-- The state and checkpoint tables are keyed by scope, outbox Resource and
projection name. -/
structure ProjectionKey where
  scope : ScopeKey
  resource : String
  projection : String
deriving DecidableEq

inductive OutboxKey (EventId : Type) where
  | intent (scope : ScopeKey) (resource : String) (event : EventId)
  | state (key : ProjectionKey) (event : EventId)
  | checkpoint (key : ProjectionKey) (partition : String)
deriving DecidableEq

/-- The row stored under a key. An intent is stored under its own event id. -/
abbrev OutboxRow (EventId : Type) : OutboxKey EventId → Type
  | .intent _ _ event => { data : OutboxData EventId // data.eventId = event }
  | .state _ _ => StateRow
  | .checkpoint _ _ => CheckpointRow EventId

abbrev OutboxStore (EventId : Type) := Store (OutboxRow EventId)

namespace OutboxStore

variable {EventId : Type}

def intent (store : OutboxStore EventId) (scope : ScopeKey) (resource : String)
    (event : EventId) : Option { data : OutboxData EventId // data.eventId = event } :=
  store (.intent scope resource event)

def state (store : OutboxStore EventId) (key : ProjectionKey) (event : EventId) :
    Option StateRow :=
  store (.state key event)

def checkpoint (store : OutboxStore EventId) (key : ProjectionKey)
    (partition : String) : Option (CheckpointRow EventId) :=
  store (.checkpoint key partition)

def data (store : OutboxStore EventId) (scope : ScopeKey) (resource : String)
    (event : EventId) : Option (OutboxData EventId) :=
  (store.intent scope resource event).map Subtype.val

theorem data_of_stored {store : OutboxStore EventId} {scope : ScopeKey}
    {resource : String} {event : EventId}
    {row : { data : OutboxData EventId // data.eventId = event }}
    (stored : store (.intent scope resource event) = some row) :
    store.data scope resource event = some row.val :=
  congrArg (Option.map Subtype.val) stored

/-- A store that holds intents and no projection progress. -/
def ofIntents
    (intents : (scope : ScopeKey) → (resource : String) → (event : EventId) →
      Option { data : OutboxData EventId // data.eventId = event }) :
    OutboxStore EventId
  | .intent scope resource event => intents scope resource event
  | .state _ _ => none
  | .checkpoint _ _ => none

/-! ### Replacing one row -/

variable [DecidableEq EventId]

def setState (store : OutboxStore EventId) (key : ProjectionKey)
    (event : EventId) (row : StateRow) : OutboxStore EventId :=
  Function.update store (.state key event) (some row)

def setCheckpoint (store : OutboxStore EventId) (key : ProjectionKey)
    (partition : String) (row : CheckpointRow EventId) : OutboxStore EventId :=
  Function.update store (.checkpoint key partition) (some row)

section Replacement

variable (store : OutboxStore EventId) (key : ProjectionKey) (event : EventId)
  (partition : String) (row : StateRow) (saved : CheckpointRow EventId)

@[simp] theorem state_setState_self :
    (store.setState key event row).state key event = some row := by
  unfold setState state
  rw [Function.update_self]

theorem state_setState_of_ne {otherKey : ProjectionKey} {other : EventId}
    (different : ¬(key = otherKey ∧ event = other)) :
    (store.setState key event row).state otherKey other =
      store.state otherKey other := by
  apply Function.update_of_ne
  rintro ⟨⟩
  exact different ⟨rfl, rfl⟩

@[simp] theorem checkpoint_setState (otherKey : ProjectionKey) :
    (store.setState key event row).checkpoint otherKey partition =
      store.checkpoint otherKey partition :=
  rfl

@[simp] theorem data_setState (scope : ScopeKey) (resource : String)
    (other : EventId) :
    (store.setState key event row).data scope resource other =
      store.data scope resource other :=
  rfl

@[simp] theorem checkpoint_setCheckpoint_self :
    (store.setCheckpoint key partition saved).checkpoint key partition =
      some saved := by
  unfold setCheckpoint checkpoint
  rw [Function.update_self]

theorem checkpoint_setCheckpoint_of_ne {otherKey : ProjectionKey}
    {other : String} (different : ¬(key = otherKey ∧ partition = other)) :
    (store.setCheckpoint key partition saved).checkpoint otherKey other =
      store.checkpoint otherKey other := by
  apply Function.update_of_ne
  rintro ⟨⟩
  exact different ⟨rfl, rfl⟩

@[simp] theorem state_setCheckpoint (otherKey : ProjectionKey) :
    (store.setCheckpoint key partition saved).state otherKey event =
      store.state otherKey event :=
  rfl

@[simp] theorem data_setCheckpoint (scope : ScopeKey) (resource : String)
    (other : EventId) :
    (store.setCheckpoint key partition saved).data scope resource other =
      store.data scope resource other :=
  rfl

end Replacement

end OutboxStore

/-! ## Order of one identity's events -/

section Order

variable {EventId : Type}

/-- Numeric versions first, then the number, then occurrence and event id. -/
def orderKey (data : OutboxData EventId) : Nat ×ₗ Rat ×ₗ Int ×ₗ EventId :=
  toLex
    (match data.sourceVersion.number with
      | some _ => 0
      | none => 1,
    toLex
      ((data.sourceVersion.number).getD 0,
      toLex (data.occurredAt, data.eventId)))

/-- `sourceIdentity` values that `IS NOT DISTINCT FROM` treats as one. -/
def SameIdentity (left right : OutboxData EventId) : Prop :=
  left.sourceIdentity.jsonb = right.sourceIdentity.jsonb

instance (left right : OutboxData EventId) : Decidable (SameIdentity left right) :=
  inferInstanceAs (Decidable (_ = _))

theorem SameIdentity.symm {left right : OutboxData EventId}
    (same : SameIdentity left right) : SameIdentity right left :=
  Eq.symm same

theorem SameIdentity.trans {first second third : OutboxData EventId}
    (left : SameIdentity first second) (right : SameIdentity second third) :
    SameIdentity first third :=
  Eq.trans left right

variable [LinearOrder EventId]

def Earlier (left right : OutboxData EventId) : Prop :=
  orderKey left < orderKey right

instance (left right : OutboxData EventId) : Decidable (Earlier left right) :=
  inferInstanceAs (Decidable (_ < _))

theorem Earlier.irrefl (data : OutboxData EventId) : ¬ Earlier data data :=
  lt_irrefl _

theorem Earlier.trans {first second third : OutboxData EventId}
    (left : Earlier first second) (right : Earlier second third) :
    Earlier first third :=
  lt_trans left right

/-- Distinct events are ordered one way or the other. -/
theorem Earlier.trichotomous {left right : OutboxData EventId}
    (different : left.eventId ≠ right.eventId) :
    Earlier left right ∨ Earlier right left := by
  have keysDiffer : orderKey left ≠ orderKey right := by
    intro equal
    have tails := congrArg (fun key => (ofLex (ofLex (ofLex key).2).2).2) equal
    exact different (by simpa [orderKey] using tails)
  exact lt_or_gt_of_ne keysDiffer

end Order

end MeridianPostgreSQL.Projection
