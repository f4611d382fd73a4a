import MeridianPostgreSQL.Query.Expressions

/-! # Query operations

A released query plan, and the request context it is translated in. -/

namespace MeridianPostgreSQL.Query

inductive OperationKind where
  | get
  | scan
  | search
  | aggregate
  | traverse
  | mutation
deriving DecidableEq

structure Join where
  target : String
  on : Expression
  left : Bool

structure Projection where
  expression : Expression
  resultAlias : Option String

structure NamedAggregate where
  name : String
  aggregate : Expression

inductive Direction where
  | asc
  | desc
deriving DecidableEq

inductive Nulls where
  | first
  | last
deriving DecidableEq

structure OrderItem where
  expression : Expression
  direction : Direction
  nulls : Nulls

structure Page where
  size : Nat
  cursor : Option String
  pointInTime : Bool

structure Budget where
  maxRelationResources : Nat
  maxTraversalDepth : Nat
  maxReturnedPaths : Nat
  maxNormalizedBytes : Nat
  deadlineMs : Nat

inductive TraversalDirection where
  | outbound
  | inbound
  | any
deriving DecidableEq

structure Traversal where
  relationCollections : List String
  resolved : Bool
  allNeighbors : Bool
  registryFingerprint : Option String
  recordFilter : Option Expression
  relationPredicates : List (String × Expression)
  direction : TraversalDirection
  minDepth : Nat
  maxDepth : Nat
  startCollection : String
  startId : Json

/-- `QueryOperation`. Resources are given by their canonical names. -/
structure QueryOperation where
  kind : OperationKind
  targets : List String
  joins : List Join
  filter : Option Expression
  projection : List Projection
  includeTotal : Bool
  resultShape : String
  grouping : List Expression
  aggregates : List NamedAggregate
  order : List OrderItem
  page : Page
  consistency : String
  budget : Budget
  traversal : Option Traversal

/-- A plan is an operation, and a planned one is pinned. -/
structure Plan where
  operation : QueryOperation
  bindingId : Option String
  registryFingerprint : Option String
  emptyResult : Bool

structure TranslationContext where
  bindingId : String
  planFingerprint : String
  registryFingerprint : String
  schemaFingerprints : List (String × String)
  scopeFingerprint : String

/-! ## Cursors -/

structure CursorPayload where
  planFingerprint : String
  schemaFingerprints : List (String × String)
  registryFingerprint : String
  scopeFingerprint : String
  sortTuple : List Json
  pageSize : Nat

/-- Signs the cursors an adapter issues and verifies those it is given. -/
structure CursorSigner where
  issue : CursorPayload → String
  verify : String → Compiled CursorPayload

/-! ## Dictionaries -/

/-- `entries[key] = value`: a key that is present keeps its place. -/
def setKey {α : Type} (entries : List (String × α)) (key : String) (value : α) :
    List (String × α) :=
  if key ∈ entries.map Prod.fst then
    entries.map fun entry => if entry.1 = key then (key, value) else entry
  else entries ++ [(key, value)]

end MeridianPostgreSQL.Query
