import MeridianPostgreSQL.Foundation.ReadCommitted
import MeridianPostgreSQL.Registry.Snapshots

/-! # Registry calls

`PostgreSQLSchemaRepository` and the transactions that enclose its calls. A
writing call inserts the row if it is missing, locks and decodes it, decides
and rewrites the whole snapshot, all under one savepoint. -/

namespace MeridianPostgreSQL.Registry

open ReadCommitted

variable {Document Report Version : Type}

/-! ## Repositories -/

/-- The primary key of `__meridian_schema_registry`. -/
structure RegistryKey where
  tenant : String
  scope : Json
deriving DecidableEq

abbrev RegistryStore := Store fun _ : RegistryKey => RegistryRow

/-- A repository and the deadline of its `OperationContext`. -/
structure Repository where
  tenant : String
  scope : Json.Object
  deadline : Option Int

def Repository.key (repository : Repository) : RegistryKey :=
  ⟨repository.tenant, (Json.object repository.scope).jsonb⟩

def Repository.expired (repository : Repository) (reading : Int) : Bool :=
  match repository.deadline with
  | none => false
  | some deadline => deadline ≤ reading

/-- `_SUPPORTED_CATALOGS`, of which a repository takes a nonempty subset. -/
def supportedCatalogs : List String := ["structured"]

inductive RegistryError where
  | deadline (message : String)
  | value (message : String)
  | definition
  | incompatible (message : String)
  | revisionConflict (message requirement : String)
  | versionConflict (message requirement : String) (references : List SchemaReference)
  | incompatibleSchema (message requirement : String)
  | notFound (message requirement : String) (references : List SchemaReference)
  | driver
  | caller

/-- `_incompatible` -/
def incompatible : RegistryError :=
  .incompatible
    "Schema registry storage is missing, incompatible, or corrupt; Platform migration required"

/-! ## Calls -/

inductive RegistryCall (Document : Type) where
  | publishSchema (document : Document) (expectedRevision : Option Int) (allowBreaking : Bool)
  | deprecateSchema (reference : Json) (expectedRevision : Option Int)
  | snapshot

def RegistryCall.expectedRevision : RegistryCall Document → Option Int
  | .publishSchema _ expected _ => expected
  | .deprecateSchema _ expected => expected
  | .snapshot => none

structure PublishResult (Document Report : Type) where
  publication : PublishedSchema Document
  idempotent : Bool
  registryRevision : Int
  compatibility : Option Report

inductive CallResult (Document Report : Type) where
  | published (result : PublishResult Document Report)
  | deprecated (publication : PublishedSchema Document)
  | snapshot (snapshot : RegistrySnapshot Document)

section Decisions

variable [LinearOrder Version] (semantics : Semantics Document Report Version)

/-! ## Decisions -/

/-- `_revision` -/
def checkRevision (expected : Option Int) (observed : Int) :
    Except RegistryError Unit :=
  match expected with
  | none => .ok ()
  | some expected =>
      if expected < 0 then
        .error (.value "expected revision must be a nonnegative integer")
      else if expected ≠ observed then
        .error (.revisionConflict
          s!"expected registry revision {expected}, observed {observed}"
          "registry.compare-and-set")
      else .ok ()

/-- `_same_schema` -/
def sameSchema (left right : SchemaReference) : Bool :=
  (left.catalog, left.namespaceName, left.name) =
    (right.catalog, right.namespaceName, right.name)

/-- The stored versions of a schema, in the order of the snapshot. -/
def versionsOf (before : RegistrySnapshot Document) (reference : SchemaReference) :
    List (PublishedSchema Document) :=
  before.schemas.filter fun item => sameSchema (item.ref semantics) reference

/-- A new version is greater than the last one, and breaks it only if asked to. -/
def checkPrevious (previous : Option (PublishedSchema Document)) (document : Document)
    (allowBreaking : Bool) : Except RegistryError (Option Report) :=
  match previous with
  | none => .ok none
  | some previous =>
      if semantics.parseVersion (semantics.reference document).version ≤
          previous.version semantics then
        .error (.versionConflict "Schema versions must increase"
          "schema.version-monotonic" [])
      else
        let report := semantics.classifyCompatibility previous.document document
        if semantics.breaking report = true ∧ allowBreaking = false then
          .error (.incompatibleSchema
            "breaking Schema change requires explicit allow_breaking"
            "schema.breaking-explicit")
        else .ok (some report)

/-- What `publish_schema` answers over a snapshot, and the snapshot it writes. -/
def decidePublication (before : RegistrySnapshot Document) (document : Document)
    (expectedRevision : Option Int) (allowBreaking : Bool) (publishedAt : String) :
    Except RegistryError
      (PublishResult Document Report × Option (RegistrySnapshot Document)) := do
  checkRevision expectedRevision before.revision
  let reference := semantics.reference document
  let versions := versionsOf semantics before reference
  match versions.find? fun item => item.ref semantics = reference with
  | some existing =>
      if semantics.fingerprint existing.document = semantics.fingerprint document then
        .ok (⟨existing, true, before.revision, none⟩, none)
      else
        .error (.versionConflict "Schema version already has a different fingerprint"
          "schema.version-immutable" [reference])
  | none => do
      let report ← checkPrevious semantics versions.getLast? document allowBreaking
      let publication : PublishedSchema Document := ⟨document, .published, publishedAt, none⟩
      let after := snapshotOf semantics (before.revision + 1)
        (before.schemas ++ [publication])
      .ok (⟨publication, false, after.revision, report⟩, some after)

/-- What `deprecate_schema` answers over a snapshot, and the snapshot it
writes. -/
def decideDeprecation (before : RegistrySnapshot Document) (reference : SchemaReference)
    (expectedRevision : Option Int) (deprecatedAt : String) :
    Except RegistryError
      (PublishedSchema Document × Option (RegistrySnapshot Document)) := do
  checkRevision expectedRevision before.revision
  match before.schemas.find? fun item => item.ref semantics = reference with
  | none =>
      .error (.notFound "Schema was not found" "schema.exists" [reference])
  | some item =>
      if item.status = .deprecated then .ok (item, none)
      else
        let result : PublishedSchema Document :=
          { item with status := .deprecated, deprecatedAt := some deprecatedAt }
        .ok (result, some (snapshotOf semantics (before.revision + 1)
          (before.schemas.map fun old =>
            if old.ref semantics = reference then result else old)))

/-! ## Statements -/

/-- An error, with the row the call had found if it got that far. -/
structure CallFailure where
  error : RegistryError
  found : Option (Option RegistryRow)

/-- An answer, with the row the call found and the row it left. -/
structure Served (Document Report : Type) where
  result : CallResult Document Report
  found : Option RegistryRow
  left : Option RegistryRow

abbrev RegistryProgram := Program (fun _ : RegistryKey => RegistryRow) CallFailure

def unlessDown : RegistryProgram Unit := Program.unlessRefused ⟨.driver, none⟩

def emptyRow : RegistryRow := storedRow semantics (snapshotOf semantics 0 [])

/-- `INSERT … ON CONFLICT (tenant, scope) DO NOTHING` -/
def insertMissing (row : RegistryRow) (existing : Option RegistryRow) :
    Change RegistryRow :=
  match existing with
  | none => .put row
  | some _ => .keep

/-- `UPDATE … WHERE tenant = … AND scope = …` -/
def updateRow (row : RegistryRow) (existing : Option RegistryRow) :
    Change RegistryRow :=
  match existing with
  | none => .keep
  | some _ => .put row

/-- The row as it was, and as a writing `_read` selects it. -/
def lockRow (repository : Repository) :
    RegistryProgram (Option RegistryRow × Option RegistryRow) := do
  unlessDown
  let made ← Program.write repository.key (insertMissing (emptyRow semantics))
  unlessDown
  let row ← Program.selectForUpdate repository.key
  match made with
  | .put _ => pure (none, row)
  | _ => pure (row, row)

/-- What `_read` makes of the row. A missing row is the empty snapshot. -/
def viewRow (row : Option RegistryRow) : Option (RegistrySnapshot Document) :=
  match row with
  | none => some (snapshotOf semantics 0 [])
  | some row => decodeRow semantics supportedCatalogs row

def readRow (found row : Option RegistryRow) :
    RegistryProgram (RegistrySnapshot Document) :=
  match viewRow semantics row with
  | none => .fail ⟨incompatible, some found⟩
  | some snapshot => pure snapshot

/-- `_connection`, with the check of the catalogs by
`verify_schema_repository`. -/
def connection {α : Type} (repository : Repository) (body : RegistryProgram α) :
    RegistryProgram α := do
  let reading ← Program.timestamp
  if repository.expired reading then
    Program.fail ⟨.deadline "Schema deadline expired", none⟩
  else
    Program.transaction (do
      unlessDown
      Program.unlessRefused ⟨incompatible, none⟩
      body)

/-- Read under lock, decide and write. -/
def mutateBody (repository : Repository)
    (decide : RegistrySnapshot Document → Int → Except RegistryError
      (CallResult Document Report × Option (RegistrySnapshot Document))) :
    RegistryProgram (Served Document Report) := do
  let rows ← lockRow semantics repository
  let before ← readRow semantics rows.1 rows.2
  let reading ← Program.timestamp
  match decide before reading with
  | .error error => .fail ⟨error, some rows.1⟩
  | .ok (result, none) => pure ⟨result, rows.1, rows.2⟩
  | .ok (result, some after) => do
      unlessDown
      let _ ← Program.write repository.key (updateRow (storedRow semantics after))
      pure ⟨result, rows.1, some (storedRow semantics after)⟩

def mutate (repository : Repository)
    (decide : RegistrySnapshot Document → Int → Except RegistryError
      (CallResult Document Report × Option (RegistrySnapshot Document))) :
    RegistryProgram (Served Document Report) :=
  connection repository (mutateBody semantics repository decide)

def CallResult.ofPublication
    (decision : PublishResult Document Report × Option (RegistrySnapshot Document)) :
    CallResult Document Report × Option (RegistrySnapshot Document) :=
  (.published decision.1, decision.2)

def CallResult.ofDeprecation
    (decision : PublishedSchema Document × Option (RegistrySnapshot Document)) :
    CallResult Document Report × Option (RegistrySnapshot Document) :=
  (.deprecated decision.1, decision.2)

def catalogMissing : RegistryError :=
  .value "Schema Catalog is not installed in this repository"

def publishSchema (repository : Repository) (document : Document)
    (expectedRevision : Option Int) (allowBreaking : Bool) :
    RegistryProgram (Served Document Report) :=
  if (semantics.reference document).catalog ∉ supportedCatalogs then
    .fail ⟨catalogMissing, none⟩
  else if semantics.validate document = false then .fail ⟨.definition, none⟩
  else
    mutate semantics repository fun before reading =>
      (decidePublication semantics before document expectedRevision allowBreaking
        (semantics.stamp reading)).map CallResult.ofPublication

def deprecateSchema (repository : Repository) (reference : Json)
    (expectedRevision : Option Int) : RegistryProgram (Served Document Report) :=
  match semantics.parseReference reference with
  | none => .fail ⟨.definition, none⟩
  | some reference =>
      if reference.catalog ∉ supportedCatalogs then .fail ⟨catalogMissing, none⟩
      else
        mutate semantics repository fun before reading =>
          (decideDeprecation semantics before reference expectedRevision
            (semantics.stamp reading)).map CallResult.ofDeprecation

def snapshotBody (repository : Repository) :
    RegistryProgram (Served Document Report) := do
  unlessDown
  let store : RegistryStore ← Program.select
  let snapshot ← readRow semantics (store repository.key) (store repository.key)
  pure ⟨.snapshot snapshot, store repository.key, store repository.key⟩

/-- `snapshot` -/
def takeSnapshot (repository : Repository) :
    RegistryProgram (Served Document Report) :=
  connection repository (snapshotBody semantics repository)

def serveCall (repository : Repository) :
    RegistryCall Document → RegistryProgram (Served Document Report)
  | .publishSchema document expected allowBreaking =>
      publishSchema semantics repository document expected allowBreaking
  | .deprecateSchema reference expected =>
      deprecateSchema semantics repository reference expected
  | .snapshot => takeSnapshot semantics repository

/-! ## Transactions -/

/-- A call, its outcome, and the rows it found and left if it read the row. -/
structure CallRecord (Document Report : Type) where
  repository : Repository
  call : RegistryCall Document
  outcome : Except RegistryError (CallResult Document Report)
  rows : Option (Option RegistryRow × Option RegistryRow)

def recordOf (repository : Repository) (call : RegistryCall Document)
    (outcome : Except CallFailure (Served Document Report)) :
    CallRecord Document Report :=
  match outcome with
  | .ok served => ⟨repository, call, .ok served.result, some (served.found, served.left)⟩
  | .error failure => ⟨repository, call, .error failure.error,
      failure.found.map fun row => (row, row)⟩

/-- What an enclosing transaction does: calls whose errors it catches, and
blocks under savepoints of its own, which it may leave with an error. -/
inductive Script (Document : Type) where
  | finish
  | call (repository : Repository) (call : RegistryCall Document)
      (rest : Script Document)
  | block (inner : Script Document) (raises : Bool) (rest : Script Document)

def Script.run : Script Document → RegistryProgram (List (CallRecord Document Report))
  | .finish => pure []
  | .call repository request rest => do
      let outcome ← Program.attempt (serveCall semantics repository request)
      let records ← rest.run
      pure (recordOf repository request outcome :: records)
  | .block inner raises rest => do
      let outcome ← Program.attempt (Program.transaction (do
        let records ← inner.run
        if raises then Program.fail ⟨.caller, none⟩ else pure records))
      let records ← rest.run
      match outcome with
      | .ok kept => pure (kept ++ records)
      | .error _ => pure records

/-- The transactions in which repository calls run, alone or enclosed. -/
inductive RegistryTransaction :
    RegistryProgram (List (CallRecord Document Report)) → Prop
  | script (script : Script Document) :
      RegistryTransaction (script.run semantics)

end Decisions

end MeridianPostgreSQL.Registry
