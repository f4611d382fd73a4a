import MeridianPostgreSQL.Foundation.Dispatches
import MeridianPostgreSQL.Migration.Executor
import MeridianPostgreSQL.Migration.LogicalImport
import MeridianPostgreSQL.Operations.Compiler
import MeridianPostgreSQL.Projection.ClaimStatements
import MeridianPostgreSQL.Query.Execution

/-! # Entry points on the wire

The commands that each entry point of the adapter sends, in order, with the
checks that stand before each of them. Bound values travel beside the text and
are left out. -/

namespace MeridianPostgreSQL.Compatibility

open Dispatches Settings Query Schema Migration Operations Projection

/-! ## Commands -/

/-- Composed SQL, or a statement of a migration plan. -/
inductive Command where
  | sql (command : Sql Query.Origin)
  | planned (statement : PlanStatement)

def Command.text (sql : String) : Command := .sql [.text sql]

/-- A piece of text opens with a word, perhaps behind a bracketed query. -/
def opensWith (words : List String) : Piece Query.Origin → Bool
  | .text sql => words.any fun word =>
      word.toList.isPrefixOf sql.toList || (") " ++ word).toList.isPrefixOf sql.toList
  | _ => false

def writeWords : List String :=
  ["INSERT ", "UPDATE ", "DELETE ", "MERGE ", "TRUNCATE ", "CREATE ", "ALTER ", "DROP "]

/-- An INSERT, UPDATE, DELETE or DDL statement. The word that says so may
follow a list of named queries. -/
def Command.writes : Command → Bool
  | .sql [] => false
  | .sql (first :: rest) =>
      opensWith writeWords first ||
        (opensWith ["WITH "] first && rest.any (opensWith writeWords))
  | .planned _ => true

/-- A `SELECT` that locks the rows it reads. -/
def Command.locks : Command → Bool
  | .sql command => command.any (opensWith [" FOR UPDATE"])
  | .planned _ => false

inductive Failure where
  | rejected (error : CompileError)
  | raised (message : String)

abbrev Server (Row : Type) := Responder Command (List Row) Failure

abbrev Wire (α : Type) := Sender Command Failure α

def compiled {α : Type} : Compiled α → Wire α
  | .ok value => pure value
  | .error error => throw (.rejected error)

def checked {α : Type} : Except String α → Wire α
  | .ok value => pure value
  | .error message => throw (.raised message)

/-! ## Runtime -/

structure ActivationPlan where
  resourceRef : String
  fingerprint : String
  steps : List Json
  requirements : List String
  metadata : Json

/-- What the code reads of the rows a server answers with, by the driver and
the storage library. -/
structure Driver (Document Definition Row : Type) where
  instant : Row → Int
  flag : Row → Bool
  text : Row → String
  intent : Row → Except String (OutboxData String)
  state : Row → Option StateRow
  revision : Row → Nat
  released : ReleasedOutboxData String
  /-- The columns of an outbox table and the key of it. -/
  shaped : String → List Row → Bool
  /-- A stored result of the same request. -/
  replayed : ExecutionRequest → List Row → Except String Unit
  replayKey : ExecutionRequest → Option String
  /-- The rows of a result, normalized and within the byte limit. -/
  result : List Row → Except String Unit
  registry : List Row → Except String Unit
  publish : MetadataPublishCommand Document → ExecutionRequest → Wire Unit
  definition : ResourceRef → Option Definition → Definition → Except String Unit
  reference : Json → Except String ResourceRef

/-- A runtime with its settings. The compilers are built on the same ones. -/
structure Runtime (Document Definition Row : Type) where
  settings : PostgreSQLSettings
  operations : OperationCompiler Document
  dml : DMLCompiler
  operationsBuilt : operations.settings = settings
  dmlBuilt : dml.settings = settings
  bindingId : String
  server : Server Row
  driver : Driver Document Definition Row
  digests : Digests

namespace Runtime

variable {Document Definition Row : Type} (runtime : Runtime Document Definition Row)

/-- `require_writable` -/
def requireWritable : Wire Unit :=
  if runtime.settings.readOnly then
    throw (.rejected (.value "read compatibility Binding is read-only"))
  else pure ()

def ask (command : Sql Query.Origin) : Wire (List Row) := send runtime.server (.sql command)

def tell (command : Sql Query.Origin) : Wire Unit := do
  let _ ← runtime.ask command
  pure ()

def named (table : String) : Sql Query.Origin :=
  ident [runtime.settings.physicalSchema.text, table]

/-- `connection.transaction()` where none is open. -/
def inTransaction {α : Type} (body : Wire α) : Wire α :=
  transaction runtime.server (.text "BEGIN") (.text "COMMIT") (.text "ROLLBACK") body

/-- `connection.transaction()` inside a transaction. -/
def inSavepoint {α : Type} (body : Wire α) : Wire α :=
  transaction runtime.server (.text "SAVEPOINT \"_pg3_1\"") (.text "RELEASE \"_pg3_1\"")
    (.text "ROLLBACK TO \"_pg3_1\"") body

/-- What a pool sends on a connection before it hands it out. -/
def readOnlyDefault : Command := .text "SET default_transaction_read_only TO on"

def configured : List Command :=
  [.text "SET TIME ZONE 'UTC'", .text "SET default_transaction_isolation TO 'read committed'"] ++
    (if runtime.settings.readOnly then [readOnlyDefault] else []) ++ [.text "COMMIT"]

/-! ## Sessions -/

def setTimeout : Wire Unit := runtime.tell
  [.text "SELECT set_config('statement_timeout', ", .slot (.value "timeout"), .text ", true)"]

/-- `_execute_dml` -/
def executeDml (command : DMLCommand) : Wire (List Row) := do
  let rows ← runtime.ask command.statement.command
  if command.conditional = true ∧ rows.isEmpty = true then
    throw (.raised "conditional mutation did not match the expected record version")
  else if command.method = .get ∧ 1 < rows.length then
    throw (.raised "structured get matched more than one record")
  else pure rows

def replayTable : Sql Query.Origin := runtime.named "__meridian_evidence_replay"

/-- Each record of an append, with the time that is left to it. -/
def appendRows : List DMLCommand → Wire (List Row)
  | [] => pure []
  | command :: rest => do
      runtime.setTimeout
      let first ← runtime.executeDml command
      let others ← appendRows rest
      pure (first ++ others)

/-- An append that no earlier request has made. -/
def appendOnce (commands : List DMLCommand) (key : Option String) : Wire Unit := do
  let rows ← runtime.appendRows commands
  checked (runtime.driver.result rows)
  if key.isSome then
    runtime.tell ([Piece.text "UPDATE "] ++ runtime.replayTable ++ [Piece.text " SET result = ",
      .slot (.value "result"), .text " WHERE replay_key = ", .slot (.value "replay_key")])
  else pure ()

/-- `_execute_append` -/
def executeAppend (commands : List DMLCommand) (request : ExecutionRequest)
    (transactional : Bool) : Wire Unit :=
  if Json.get request.operation.input "requireAtomic" = some (.bool true) ∧
      transactional = false then
    throw (.raised "required Evidence append must join an explicit Binding transaction")
  else
    let key := runtime.driver.replayKey request
    runtime.inSavepoint (do
      if key.isSome then
        let claimed ← runtime.ask ([Piece.text "INSERT INTO "] ++ runtime.replayTable ++
          [Piece.text " (replay_key, request_fingerprint) VALUES (", .slot (.value "replay_key"),
            .text ", ", .slot (.value "request_fingerprint"),
            .text ") ON CONFLICT DO NOTHING RETURNING replay_key"])
        if claimed.isEmpty then
          let previous ← runtime.ask ([Piece.text "SELECT request_fingerprint, result FROM "] ++
            runtime.replayTable ++ [Piece.text " WHERE replay_key = ", .slot (.value "replay_key")])
          checked (runtime.driver.replayed request previous)
        else runtime.appendOnce commands key
      else runtime.appendOnce commands key)

/-- `_execute_query` -/
def executeQuery (query : CompiledQuery) (request : ExecutionRequest) : Wire Unit := do
  let _ ← compiled (query.executionParameters request.context)
  let rows ← runtime.ask query.statement.command
  checked (runtime.driver.result rows)

def executeCommand (request : ExecutionRequest) (transactional : Bool) :
    AdapterCommand Document → Wire Unit
  | .publish command => runtime.driver.publish command request
  | .query query => runtime.executeQuery query request
  | .dml [command] =>
      if command.method = .append then runtime.executeAppend [command] request transactional
      else do
        let rows ← runtime.executeDml command
        checked (runtime.driver.result rows)
  | .dml commands => runtime.executeAppend commands request transactional

/-- `_execute` -/
def executeRequest (request : ExecutionRequest) (transactional : Bool) : Wire Unit :=
  if request.remainingMs.any (· ≤ 0) then
    throw (.raised "operation deadline expired before PostgreSQL execution")
  else if request.bindingId ≠ runtime.bindingId then
    throw (.rejected (.value "execution request belongs to a different Binding"))
  else do
    let command ← compiled (runtime.operations.compile request)
    runtime.setTimeout
    runtime.executeCommand request transactional command

def begin : Wire Unit := runtime.tell [.text "BEGIN ISOLATION LEVEL READ COMMITTED"]

def commit : Wire Unit := runtime.tell [.text "COMMIT"]

/-- `execute` of a session without a transaction. A connection that failed is
closed, with nothing more sent. -/
def execute (request : ExecutionRequest) : Wire Unit := do
  runtime.begin
  runtime.executeRequest request false
  runtime.commit

/-! ## Migration -/

/-- `_scalar(row, "present")` -/
def present (table : String) : Wire Bool := do
  let rows ← runtime.ask [.text "SELECT to_regclass(", .slot (.value table),
    .text ") IS NOT NULL AS present"]
  pure (rows.any runtime.driver.flag)

/-- `_verify_registry`: the storage of a Schema registry is looked at. -/
def verifyRegistry : Wire Unit :=
  if runtime.settings.resources.any ResourceLayout.isRegistry then do
    let tables ← runtime.ask [.text "SELECT to_regclass(", .slot (.value "migration"),
      .text "), to_regclass(", .slot (.value "registry"), .text ")"]
    let marker ← runtime.ask ([Piece.text "SELECT format, fingerprint FROM "] ++
      runtime.named "__meridian_schema_registry_migration" ++ [Piece.text " WHERE singleton"])
    checked (runtime.driver.registry (tables ++ marker))
    ["__meridian_schema_registry_migration", "__meridian_schema_registry"].forM fun table => do
      let columns ← runtime.ask
        [.text "SELECT attname, format_type(atttypid, atttypmod), attnotnull FROM pg_attribute ",
          .text "WHERE attrelid = to_regclass(", .slot (.value table),
          .text ") AND attnum > 0 AND NOT attisdropped ORDER BY attnum"]
      let key ← runtime.ask
        [.text "SELECT pg_get_constraintdef(oid) FROM pg_constraint WHERE conrelid = to_regclass(",
          .slot (.value table), .text ") AND contype = 'p'"]
      checked (runtime.driver.registry (columns ++ key))
  else pure ()

/-- `_current_fingerprint` -/
def currentFingerprint : Wire (Option String) := do
  let stored ← runtime.present "__meridian_resources"
  if stored = false then pure none
  else do
    let rows ← runtime.ask
      ([Piece.text "SELECT DISTINCT physical_fingerprint AS physical_fingerprint FROM "] ++
        runtime.named "__meridian_resources")
    match (rows.map runtime.driver.text).dedup with
    | [] => pure none
    | [value] => pure (some value)
    | _ => throw (.raised "physical metadata contains divergent fingerprints")

def checkExpected : Option String → Wire Unit
  | none => pure ()
  | some expected => do
      let observed ← runtime.currentFingerprint
      if observed.any (· ≠ expected) then
        throw (.raised "physical fingerprint changed before migration")
      else pure ()

/-- The row of a Resource in the metadata table. -/
def recordResource (resource : String × String) : Wire Unit :=
  match runtime.settings.layout resource.1 with
  | none => throw (.rejected (.key resource.1))
  | some _ => runtime.tell ([Piece.text "INSERT INTO "] ++ runtime.named "__meridian_resources" ++
      [Piece.text " (resource_ref, resource_fingerprint, schema_fingerprint, profile, ",
        .text "physical_fingerprint) VALUES (", .slot (.value "ref"), .text ", ",
        .slot (.value "resource"), .text ", ", .slot (.value "schema"), .text ", ",
        .slot (.value "profile"), .text ", ", .slot (.value "physical"),
        .text ") ON CONFLICT (resource_ref) DO UPDATE SET ",
        .text "resource_fingerprint = EXCLUDED.resource_fingerprint, ",
        .text "schema_fingerprint = EXCLUDED.schema_fingerprint, ",
        .text "profile = EXCLUDED.profile, ",
        .text "physical_fingerprint = EXCLUDED.physical_fingerprint, ",
        .text "updated_at = clock_timestamp()"])

/-- `MigrationExecutor.apply` -/
def migrate (plan : MigrationPlan) (expected : Option String) : Wire Unit := do
  runtime.requireWritable
  runtime.inTransaction (do
    runtime.tell [.text "SELECT pg_advisory_xact_lock(hashtextextended(",
      .slot (.value "lock"), .text ", 0))"]
    let known ← runtime.present "__meridian_migrations"
    let existing ← if known then
        runtime.ask ([Piece.text "SELECT 1 AS present FROM "] ++
          runtime.named "__meridian_migrations" ++
          [Piece.text " WHERE plan_fingerprint = ", .slot (.value "plan")])
      else pure []
    runtime.checkExpected expected
    if existing.isEmpty = false then runtime.verifyRegistry
    else do
      plan.statements.forM fun statement => do
        let _ ← send runtime.server (.planned statement)
        pure ()
      runtime.verifyRegistry
      plan.resourceFingerprints.forM runtime.recordResource
      runtime.tell ([Piece.text "INSERT INTO "] ++ runtime.named "__meridian_migrations" ++
        [Piece.text " (plan_fingerprint) VALUES (", .slot (.value "plan"), .text ")"]))

/-! ## Activation -/

/-- `SchemaCompiler.compile` -/
def compileSchema : Wire MigrationPlan :=
  checked (Schema.compile runtime.digests runtime.settings)

def planRequirements : List String := ["platform-migration-job", "postgis", "transactional-ddl"]

/-- The plan of an activation of a layout. -/
def expectedActivation (layout : ResourceLayout) (physical : MigrationPlan)
    (target : String) : List Json × Json :=
  ([.object [("kind", .string "activate-pinned-layout"),
      ("resourceRef", .string layout.ref.canonical), ("schemaFingerprint", .string target)]],
    .object [("adapterContract", .string "1.0.0"),
      ("migrationPlanFingerprint", .string physical.planFingerprint),
      ("physicalFingerprint", .string physical.physicalFingerprint),
      ("resourceFingerprint", .string layout.resourceFingerprint),
      ("schemaFingerprint", .string target),
      ("statementCount", .int physical.statements.length)])

def pinnedLayout (canonical : String) : Wire ResourceLayout :=
  match runtime.settings.layout canonical with
  | some layout => pure layout
  | none => throw (.rejected (.key s!"no physical mapping for {canonical}"))

/-- `plan_activation` -/
def planActivation (resource : ResourceRef) (current : Option Definition)
    (target : Definition) (fingerprint : String) : Wire ActivationPlan := do
  runtime.requireWritable
  checked (runtime.driver.definition resource current target)
  let layout ← runtime.pinnedLayout resource.canonical
  let physical ← runtime.compileSchema
  let expected := expectedActivation layout physical fingerprint
  pure ⟨resource.canonical, physical.planFingerprint, expected.1, planRequirements, expected.2⟩

/-- `_read_registry_revision` -/
def readRegistryRevision : Wire Unit := do
  let rows ← runtime.ask
    ([Piece.text "SELECT resource_ref, resource_fingerprint, schema_fingerprint, profile, ",
      .text "physical_fingerprint FROM "] ++ runtime.named "__meridian_resources" ++
      [Piece.text " ORDER BY resource_ref"])
  if rows.isEmpty = true then throw (.raised "physical registry metadata is empty") else pure ()

/-- `apply_activation` -/
def applyActivation (plan : ActivationPlan) : Wire Unit := do
  runtime.requireWritable
  let layout ← runtime.pinnedLayout plan.resourceRef
  let physical ← runtime.compileSchema
  let expected := expectedActivation layout physical layout.schemaFingerprint
  if plan.metadata.canonical ≠ expected.2.canonical ∨
      plan.steps.map Json.canonical ≠ expected.1.map Json.canonical ∨
      plan.requirements ≠ planRequirements then
    throw (.rejected (.value "activation plan differs from the Binding-pinned migration"))
  else do
    runtime.migrate physical none
    runtime.readRegistryRevision

/-! ## Logical import -/

/-- `import_rows` -/
def importRows (tenant : String) (scope : List (String × String)) (lines : List Json) :
    Wire Unit := do
  runtime.requireWritable
  let scope ← compiled (importScope runtime.dml tenant scope)
  runtime.inTransaction (lines.forM fun line => do
    let statement ← compiled (importLine runtime.dml scope line)
    runtime.tell statement.command)

/-- A record of an import names a declared Resource. -/
def importRecord (allowed : List String) (record : Json) : Wire Unit :=
  match record with
  | .object members =>
      if ¬ (Json.names members).Perm ["resource", "values"] then
        throw (.rejected (.value "logical import contains an invalid Record envelope"))
      else
        match Json.get members "resource" with
        | some (.string canonical) =>
            if canonical ∈ allowed then pure ()
            else throw (.rejected
              (.value "logical import Record references an undeclared Resource"))
        | _ => throw (.rejected
            (.value "logical import Record references an undeclared Resource"))
  | _ => throw (.rejected (.value "logical import contains an invalid Record envelope"))

/-- `import_logical` -/
def importLogical (payload : Json.Object) (context : OperationContext) : Wire Unit := do
  runtime.requireWritable
  if ¬ (Json.names payload).Perm ["formatVersion", "registryRevision", "resources", "records"] then
    throw (.rejected (.value "logical import envelope contains unknown or missing fields"))
  else if Json.get payload "formatVersion" ≠
      some (.string "meridian.postgresql.logical-export.v1") then
    throw (.rejected (.value "logical import format is unsupported"))
  else
    match Json.get payload "resources", Json.get payload "records" with
    | some (.array resources), some (.array records) => do
        let refs ← checked (resources.mapM runtime.driver.reference)
        let allowed := refs.map ResourceRef.canonical
        if ¬ allowed.Nodup then
          throw (.rejected (.value "logical import Resources must be unique"))
        else do
          allowed.forM fun ref => do
            let _ ← runtime.pinnedLayout ref
            pure ()
          records.forM (importRecord allowed)
          match context.tenant with
          | none => throw (.rejected
              (.value "logical import requires an OperationContext tenant"))
          | some tenant => runtime.importRows tenant context.scope records
    | _, _ => throw (.rejected (.type "logical import Resources and Records must be arrays"))

/-! ## Outbox -/

/-- `_connection` -/
def outboxConnection {α : Type} (body : Wire α) : Wire α :=
  runtime.inTransaction (do runtime.setTimeout; body)

def columnsStatement (table : String) : Sql Query.Origin :=
  [.text "SELECT attname AS name, format_type(atttypid, atttypmod) AS type, ",
    .text "attnotnull AS required FROM pg_attribute WHERE attrelid = to_regclass(",
    .slot (.value table), .text ") AND attnum > 0 AND NOT attisdropped ORDER BY attnum"]

def keyStatement (table : String) : Sql Query.Origin :=
  [.text "SELECT pg_get_constraintdef(oid) AS definition FROM pg_constraint ",
    .text "WHERE conrelid = to_regclass(", .slot (.value table), .text ") AND contype = 'p'"]

def privilegeStatement (table privilege : String) : Sql Query.Origin :=
  [.text "SELECT has_table_privilege(", .slot (.value table), .text ", ",
    .slot (.value privilege), .text ") AS allowed"]

/-- `verify_storage` for one table. -/
def verifyTable (table : String) : Wire Unit := do
  let columns ← runtime.ask (columnsStatement table)
  if runtime.driver.shaped table columns = false then
    throw (.raised "outbox storage requires an explicit deployment migration")
  else do
    let key ← runtime.ask (keyStatement table)
    if runtime.driver.shaped table key = false then
      throw (.raised "outbox storage requires its scoped unique key")
    else ["SELECT", "INSERT", "UPDATE"].forM fun privilege => do
      let allowed ← runtime.ask (privilegeStatement table privilege)
      if allowed.any runtime.driver.flag then pure ()
      else throw (.raised "runtime identity lacks outbox storage privileges")

/-- `__init__`, past the checks of its arguments. -/
def openOutbox : Wire Unit := runtime.outboxConnection
  ([stateTable, "__meridian_outbox_checkpoint"].forM runtime.verifyTable)

/-- `_now` -/
def now : Option CallerClock → Wire Int
  | some reading =>
      if reading.utc then pure reading.instant
      else throw (.rejected (.value "now must be UTC"))
  | none => do
      let rows ← runtime.ask [.text "SELECT clock_timestamp() AS now"]
      match rows with
      | row :: _ => pure (runtime.driver.instant row)
      | [] => throw (.raised "")

/-- The loop of `atomic_claim` over the rows it selected. -/
def leaseRows (tables : OutboxTables) (owner : String) (duration : Int)
    (clock : Option CallerClock) : List Row → Nat → Wire Unit
  | [], _ => pure ()
  | row :: rest, bytes => do
      let data ← checked (runtime.driver.intent row)
      let size := bytes + runtime.driver.released.jsonSize data
      if tables.outbox.maxResultBytes < size then
        throw (.raised "outbox claim exceeds the configured result byte limit")
      else do
        let current ← runtime.now clock
        runtime.tell (tables.leaseStatement data.eventId owner current duration).command
        leaseRows tables owner duration clock rest size

/-- `atomic_claim` -/
def claim (tables : OutboxTables) (owner : String) (limit duration : Int)
    (clock : Option CallerClock) : Wire Unit :=
  if owner = "" then throw (.rejected (.value "owner must be non-empty"))
  else if ¬ (1 ≤ limit ∧ limit ≤ tables.outbox.maxBatchSize) then
    throw (.rejected (.value "limit must be positive and within max_batch_size"))
  else if duration ≤ 0 then throw (.rejected (.value "lease_duration must be positive"))
  else runtime.outboxConnection (do
    let current ← runtime.now clock
    let rows ← runtime.ask (tables.claimStatement current limit.toNat).command
    runtime.leaseRows tables owner duration clock rows 0)

/-- The statement of `_load` that finds an intent. -/
def intentStatement (tables : OutboxTables) (lock : Bool) : Sql Query.Origin :=
  [Piece.text "SELECT "] ++ tables.fields "i" ++ [Piece.text ", s.* FROM "] ++ tables.intents ++
    [Piece.text " i "] ++ (tables.join "i" "s").command ++ [Piece.text " WHERE "] ++
    (tables.selection "i").command ++ [Piece.text " AND "] ++ tables.column "i" "eventId" ++
    [Piece.text " = ", .slot (.outbox "i" "eventId")] ++
    if lock then [.text " FOR UPDATE OF i"] else [.text " "]

def stateStatement (tables : OutboxTables) : Sql Query.Origin :=
  [Piece.text "SELECT s.* FROM "] ++ tables.states ++ [Piece.text " s WHERE "] ++
    (tables.key "s").command ++ [Piece.text " AND event_id = ", .slot (.outbox "s" "event_id")]

/-- `_load` -/
def load (tables : OutboxTables) (lock : Bool) : Wire (Row × Option StateRow) := do
  let rows ← runtime.ask (intentStatement tables lock)
  match rows with
  | [] => throw (.raised "outbox event was not found in scope")
  | row :: _ =>
      if lock then do
        let state ← runtime.ask (stateStatement tables)
        pure (row, (state.head?.bind runtime.driver.state).or (runtime.driver.state row))
      else pure (row, runtime.driver.state row)

/-- `_leased` -/
def leased (tables : OutboxTables) (owner : String) (clock : Option CallerClock) :
    Wire (Row × StateRow × Int) := do
  let found ← runtime.load tables true
  let current ← runtime.now clock
  match found.2 with
  | some state =>
      if leaseLost owner current state then
        throw (.raised "outbox lease requires the current non-expired owner")
      else pure (found.1, state, current)
  | none => throw (.raised "outbox lease requires the current non-expired owner")

def checkpoints : Sql Query.Origin := runtime.named "__meridian_outbox_checkpoint"

/-- `_read_checkpoint` -/
def readCheckpoint (tables : OutboxTables) : Wire Nat := do
  let rows ← runtime.ask ([Piece.text "SELECT * FROM "] ++ runtime.checkpoints ++
    [Piece.text " c WHERE "] ++ (tables.key "c").command ++
    [Piece.text " AND partition_key=", .slot (.outbox "c" "partition_key")])
  pure ((rows.head?.map runtime.driver.revision).getD 0)

/-- The values of a new checkpoint. -/
def checkpointSlots : Sql Query.Origin :=
  joined "," (["scope", "resource_ref", "projection", "partition_key", "revision", "event_id",
    "source_version", "target_fingerprint", "advanced_at"].map fun name =>
      [.slot (.outbox "" name)])

def checkpointStatement : Sql Query.Origin :=
  [Piece.text "INSERT INTO "] ++ runtime.checkpoints ++
    [Piece.text " AS c (scope, resource_ref, projection, partition_key, revision, event_id, ",
      .text "source_version, target_fingerprint, advanced_at) VALUES ("] ++ checkpointSlots ++
    [Piece.text ") ON CONFLICT (scope, resource_ref, projection, partition_key) DO UPDATE SET ",
      .text "revision=EXCLUDED.revision, event_id=EXCLUDED.event_id, ",
      .text "source_version=EXCLUDED.source_version, ",
      .text "target_fingerprint=EXCLUDED.target_fingerprint, ",
      .text "advanced_at=EXCLUDED.advanced_at WHERE c.revision=",
      .slot (.outbox "c" "revision"), .text " RETURNING *"]

/-- The end of a lease, as the columns the caller sets. -/
def finishStatement (tables : OutboxTables) (changes returned : Sql Query.Origin) :
    Sql Query.Origin :=
  [Piece.text "UPDATE "] ++ tables.states ++ [Piece.text " s SET "] ++ changes ++
    [Piece.text " WHERE "] ++ (tables.key "s").command ++
    [Piece.text " AND event_id=", .slot (.outbox "s" "event_id"),
      .text " AND state='LEASED' AND owner=", .slot (.outbox "s" "owner"),
      .text " AND expires_at > COALESCE(", .slot (.outbox "s" "now"),
      .text "::timestamptz, clock_timestamp()) RETURNING "] ++ returned

/-- `complete` -/
def complete (tables : OutboxTables) (owner : String) (acknowledged : Json)
    (fingerprint : String) (clock : Option CallerClock) : Wire Unit :=
  if isFingerprint fingerprint = false then
    throw (.rejected (.value "target_fingerprint must be a SHA256 fingerprint"))
  else runtime.outboxConnection (do
    let held ← runtime.leased tables owner clock
    let data ← checked (runtime.driver.intent held.1)
    if acknowledged ≠ data.sourceVersion then
      throw (.raised "target acknowledgement does not match the exact source version")
    else do
      let _ ← runtime.readCheckpoint tables
      let saved ← runtime.ask runtime.checkpointStatement
      if saved.isEmpty then throw (.raised "checkpoint revision changed concurrently")
      else do
        let changed ← runtime.ask (finishStatement tables
          [.text "state='COMPLETED', owner=NULL, acquired_at=NULL, expires_at=NULL, ",
            .text "failure=NULL, target_fingerprint=", .slot (.outbox "s" "target_fingerprint"),
            .text ", completed_at=", .slot (.outbox "s" "completed_at")] [.text "event_id"])
        if changed.isEmpty then
          throw (.raised "lease expired before completion; checkpoint rolled back")
        else pure ())

/-- `release` -/
def release (tables : OutboxTables) (owner : String) (clock : Option CallerClock) : Wire Unit :=
  runtime.outboxConnection (do
    let _ ← runtime.leased tables owner clock
    let saved ← runtime.ask (finishStatement tables
      [.text "state=", .slot (.outbox "s" "state"),
        .text ", owner=NULL, acquired_at=NULL, expires_at=NULL, failure=",
        .slot (.outbox "s" "failure")] [.text "*"])
    if saved.isEmpty then throw (.raised "lease expired before release") else pure ())

end Runtime

/-! ## Calls -/

/-- A call of an entry point that may change what is stored, or of a session.
A compiler sends nothing; it returns what a caller might send. -/
inductive Call (Definition : Type) where
  | compileOperation (request : ExecutionRequest)
  | compileDml (method : Method) (canonical : String) (input : Json.Object)
      (context : OperationContext)
  | compileClaim (layout : ResourceLayout) (filter changes : Json.Object) (limit : Nat)
      (context : OperationContext)
  | compileSchema
  | begin
  | execute (request : ExecutionRequest)
  | executeWithin (request : ExecutionRequest)
  | commit
  | rollback
  | migrate (plan : MigrationPlan) (expected : Option String)
  | planActivation (resource : ResourceRef) (current : Option Definition) (target : Definition)
      (fingerprint : String)
  | applyActivation (plan : ActivationPlan)
  | importRows (tenant : String) (scope : List (String × String)) (lines : List Json)
  | importLogical (payload : Json.Object) (context : OperationContext)
  | openOutbox
  | claim (tables : OutboxTables) (owner : String) (limit duration : Int)
      (clock : Option CallerClock)
  | complete (tables : OutboxTables) (owner : String) (acknowledged : Json)
      (fingerprint : String) (clock : Option CallerClock)
  | release (tables : OutboxTables) (owner : String) (clock : Option CallerClock)

/-- Commands that a compiler hands to its caller. -/
abbrev Handed := List Command

namespace Call

variable {Document Definition Row : Type}

def handed (commands : List DMLCommand) : Handed :=
  commands.map fun command => .sql command.statement.command

def handedCommand : AdapterCommand Document → Handed
  | .dml commands => handed commands
  | .query query => [.sql query.statement.command]
  | .publish _ => []

def quiet (program : Wire Unit) : Wire Handed := do
  program
  pure []

def run (runtime : Runtime Document Definition Row) : Call Definition → Wire Handed
  | .compileOperation request => do
      let command ← compiled (runtime.operations.compile request)
      pure (handedCommand command)
  | .compileDml method canonical input context => do
      let commands ← compiled (runtime.dml.compile method canonical input context)
      pure (handed commands)
  | .compileClaim layout filter changes limit context => do
      let command ← compiled (runtime.dml.atomicClaim layout filter changes limit context)
      pure (handed [command])
  | .compileSchema => do
      let plan ← runtime.compileSchema
      pure (plan.statements.map .planned)
  | .begin => quiet runtime.begin
  | .execute request => quiet (runtime.execute request)
  | .executeWithin request => quiet (runtime.executeRequest request true)
  | .commit => quiet runtime.commit
  | .rollback => quiet (runtime.tell [.text "ROLLBACK"])
  | .migrate plan expected => quiet (runtime.migrate plan expected)
  | .planActivation resource current target fingerprint => do
      let _ ← runtime.planActivation resource current target fingerprint
      pure []
  | .applyActivation plan => quiet (runtime.applyActivation plan)
  | .importRows tenant scope lines => quiet (runtime.importRows tenant scope lines)
  | .importLogical payload context => quiet (runtime.importLogical payload context)
  | .openOutbox => quiet runtime.openOutbox
  | .claim tables owner limit duration clock =>
      quiet (runtime.claim tables owner limit duration clock)
  | .complete tables owner acknowledged fingerprint clock =>
      quiet (runtime.complete tables owner acknowledged fingerprint clock)
  | .release tables owner clock => quiet (runtime.release tables owner clock)

/-- The Operation is flagged as a read and its method is one. -/
def reads (operation : Operation) : Bool :=
  operation.readOnly && (OperationCompiler.contractMethod operation).any fun method =>
    method ∈ OperationCompiler.readMethods

/-- A call that is meant to change what is stored. -/
def mutates : Call Definition → Bool
  | .compileOperation request => !reads request.operation
  | .execute request => !reads request.operation
  | .executeWithin request => !reads request.operation
  | .compileDml method _ _ _ => method != .get
  | .begin | .commit | .rollback | .openOutbox => false
  | _ => true

/-- The call takes its connection from the runtime's pool. -/
def pooled : Call Definition → Bool
  | .migrate _ _ | .importRows _ _ _ => false
  | _ => true

end Call

end MeridianPostgreSQL.Compatibility
