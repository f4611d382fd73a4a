import MeridianPostgreSQL.Foundation.Catalogs
import MeridianPostgreSQL.Settings.Layouts

/-! # The schema compiler

The idempotent statements `SchemaCompiler` makes of a Binding's settings. A
statement is what it asks of the catalog; its text and the text of a generated
expression are functions of it. -/

namespace MeridianPostgreSQL.Schema

open Settings Catalogs

/-! ## Columns -/

/-- The types of the fields, as `format_type` spells them. -/
def simpleType : LogicalType → Option String
  | .boolean => some "boolean"
  | .int8 => some "smallint"
  | .int16 => some "smallint"
  | .int32 => some "integer"
  | .int64 => some "bigint"
  | .float64 => some "double precision"
  | .string => some "text"
  | .bytes => some "bytea"
  | .uuid => some "uuid"
  | .utcTimestamp => some "timestamp with time zone"
  | .date => some "date"
  | .duration => some "interval"
  | .enum => some "text"
  | .json => some "jsonb"
  | .recordRef => some "jsonb"
  | .objectRef => some "jsonb"
  | .wgs84Point => some "geography(Point,4326)"
  | .decimal => none

/-- A missing or zero precision stands for 38. -/
def decimalPrecision (field : FieldLayout) : Int :=
  match field.precision with
  | none => 38
  | some precision => if precision = 0 then 38 else precision

/-- `_sql_type` -/
def sqlType (field : FieldLayout) : Except String String :=
  if field.cardinality = .many then .ok "jsonb"
  else
    match simpleType field.logicalType with
    | some name => .ok name
    | none =>
        let precision := decimalPrecision field
        let scale := field.scale.getD 0
        if 1 ≤ precision ∧ precision ≤ 1000 ∧ 0 ≤ scale ∧ scale ≤ precision then
          .ok s!"numeric({precision},{scale})"
        else .error s!"invalid decimal layout for field '{field.name}'"

/-- `_column_definition` -/
def columnDefinition (field : FieldLayout) : Except String Column := do
  let kind ← sqlType field
  .ok ⟨field.column.text, kind, !field.nullable, false⟩

/-- `_relation_generated_columns` -/
def relationGeneratedColumns (layout : ResourceLayout) : List Column :=
  if layout.relation.isSome then
    [⟨"__source_collection", "text", false, true⟩, ⟨"__source_record_id", "text", false, true⟩,
      ⟨"__target_collection", "text", false, true⟩, ⟨"__target_record_id", "text", false, true⟩]
  else []

def requiredText (name : String) : Column := ⟨name, "text", true, false⟩

def scopeDefinitions (settings : PostgreSQLSettings) : List Column :=
  settings.scopeColumns.map requiredText

/-- The columns that the adapter fills by default. -/
def bookkeepingDefinitions : List Column :=
  [⟨"__record_version", "bigint", true, false⟩,
    ⟨"__created_at", "timestamp with time zone", true, false⟩,
    ⟨"__updated_at", "timestamp with time zone", true, false⟩]

/-- The columns of a resource table, with those that have a default. -/
def columnDefinitions (settings : PostgreSQLSettings) (layout : ResourceLayout) :
    Except String (List (Column × Bool)) := do
  let fields ← layout.fields.mapM columnDefinition
  .ok (((scopeDefinitions settings ++ fields).map fun column => (column, false)) ++
    (bookkeepingDefinitions.map fun column => (column, true)) ++
    (relationGeneratedColumns layout).map fun column => (column, false))

/-! ## Resources -/

/-- The columns of fields that the layout has. -/
def fieldColumns (layout : ResourceLayout) (names : List String) : List String :=
  names.filterMap fun name => (layout.field name).map fun field => field.column.text

def primaryColumns (settings : PostgreSQLSettings) (layout : ResourceLayout) : List String :=
  settings.scopeColumns ++ fieldColumns layout layout.identity

/-- What an index asks for. Endpoint indexes are made for the relation. -/
def indexDefinition (settings : PostgreSQLSettings) (layout : ResourceLayout)
    (index : IndexLayout) : Option Index :=
  let indexed := fieldColumns layout index.fields
  match index.kind with
  | .relationEndpoint => none
  | .geospatial => some ⟨layout.table.text, .gist, false, indexed.take 1⟩
  | .fullText => some ⟨layout.table.text, .gin, false, indexed.take 1⟩
  | .hash => some ⟨layout.table.text, .hash, index.unique, indexed⟩
  | .btree => some ⟨layout.table.text, .btree, index.unique, settings.scopeColumns ++ indexed⟩
  | .timeSeries =>
      some ⟨layout.table.text, .btree, index.unique, settings.scopeColumns ++ indexed⟩

def indexName (layout : ResourceLayout) (index : IndexLayout) : String :=
  layout.table.text ++ "_" ++ index.name.text

def declaredIndexes (settings : PostgreSQLSettings) (layout : ResourceLayout) :
    List (String × Index) :=
  layout.indexes.filterMap fun index =>
    (indexDefinition settings layout index).map fun definition =>
      (indexName layout index, definition)

def endpointName (layout : ResourceLayout) (suffix : String) : String :=
  layout.table.text ++ "__" ++ suffix ++ "_endpoint"

def endpointIndexes (settings : PostgreSQLSettings) (layout : ResourceLayout) :
    List (String × Index) :=
  if layout.relation.isSome then
    [(endpointName layout "source", ⟨layout.table.text, .btree, false,
        settings.scopeColumns ++ ["__source_collection", "__source_record_id"]⟩),
      (endpointName layout "target", ⟨layout.table.text, .btree, false,
        settings.scopeColumns ++ ["__target_collection", "__target_record_id"]⟩)]
  else []

/-- The statements of one resource with these columns. -/
def resourceStatements (settings : PostgreSQLSettings) (layout : ResourceLayout)
    (columns : List (Column × Bool)) : List Statement :=
  .createTable layout.table.text (columns.map Prod.fst) (primaryColumns settings layout) ::
    (columns.map fun column => .addColumn layout.table.text column.1 column.2) ++
    (declaredIndexes settings layout ++ endpointIndexes settings layout).map fun index =>
      .createIndex index.1 index.2

/-- `_resource` -/
def resource (settings : PostgreSQLSettings) (layout : ResourceLayout) :
    Except String (List Statement) := do
  let columns ← columnDefinitions settings layout
  .ok (resourceStatements settings layout columns)

/-! ## Adapter tables -/

def requiredTime (name : String) : Column := ⟨name, "timestamp with time zone", true, false⟩

/-- `_metadata_table` -/
def metadataTable : Statement :=
  .createTable "__meridian_resources" [requiredText "resource_ref",
    requiredText "resource_fingerprint", requiredText "schema_fingerprint",
    requiredText "profile", requiredText "physical_fingerprint", requiredTime "updated_at"]
    ["resource_ref"]

/-- `_migration_table` -/
def migrationTable : Statement :=
  .createTable "__meridian_migrations" [requiredText "plan_fingerprint",
    requiredTime "applied_at"] ["plan_fingerprint"]

/-- `_evidence_replay_table` -/
def evidenceReplayTable : Statement :=
  .createTable "__meridian_evidence_replay" [requiredText "replay_key",
    requiredText "request_fingerprint", ⟨"result", "jsonb", false, false⟩] ["replay_key"]

def intentFields : List (String × LogicalType × Bool) :=
  [("formatVersion", .string, false), ("eventId", .string, false),
    ("sourceCatalog", .string, false), ("sourceResource", .string, false),
    ("sourceSchema", .string, false), ("sourceIdentity", .json, true),
    ("sourceVersion", .json, true), ("mutationKind", .string, false),
    ("payload", .json, true), ("immutableReference", .json, true),
    ("targetLabels", .json, false), ("occurredAt", .utcTimestamp, false),
    ("operationContext", .json, false), ("digest", .string, false)]

/-- `is_outbox` -/
def isOutbox (layout : ResourceLayout) : Bool :=
  layout.ref.catalog = "structured" && (intentFields.map Prod.fst).all fun name =>
    name ∈ layout.fieldNames

/-- `validate_layout` -/
def validateLayout (layout : ResourceLayout) : Except String Unit :=
  if ¬ isOutbox layout ∨ layout.identity ≠ ["eventId"] then
    .error "outbox Resource requires immutable OutboxDataV1 fields and eventId identity"
  else
    intentFields.forM fun intent =>
      match layout.field intent.1 with
      | none => .error intent.1
      | some field =>
          if (field.logicalType, field.nullable, field.mutable, field.cardinality) ≠
              (intent.2.1, intent.2.2, false, .one) then
            .error s!"outbox field {intent.1} has an incompatible storage layout"
          else .ok ()

def outboxColumns : List Column :=
  [⟨"scope", "jsonb", true, false⟩, requiredText "resource_ref", requiredText "projection"]

/-- `migration_statements` -/
def outboxTables : List Statement :=
  [.createTable "__meridian_outbox_state" (outboxColumns ++ [requiredText "event_id",
      requiredText "state", ⟨"attempt", "bigint", true, false⟩, ⟨"owner", "text", false, false⟩,
      ⟨"acquired_at", "timestamp with time zone", false, false⟩,
      ⟨"expires_at", "timestamp with time zone", false, false⟩,
      ⟨"failure", "jsonb", false, false⟩, ⟨"target_fingerprint", "text", false, false⟩,
      ⟨"completed_at", "timestamp with time zone", false, false⟩])
      ["scope", "resource_ref", "projection", "event_id"],
    .createTable "__meridian_outbox_checkpoint" (outboxColumns ++ [requiredText "partition_key",
      ⟨"revision", "bigint", true, false⟩, requiredText "event_id",
      ⟨"source_version", "jsonb", false, false⟩, requiredText "target_fingerprint",
      requiredTime "advanced_at"]) ["scope", "resource_ref", "projection", "partition_key"]]

def registryMigrationColumns : List Column :=
  [⟨"singleton", "boolean", true, false⟩, requiredText "format", requiredText "fingerprint"]

def registryColumns : List Column :=
  [requiredText "tenant", ⟨"scope", "jsonb", true, false⟩, ⟨"revision", "bigint", true, false⟩,
    requiredText "fingerprint", ⟨"payload", "jsonb", true, false⟩]

/-- `_storage_statements` of the Schema registry. -/
def registryTables (namespaceName : String) : List Statement :=
  [.elsewhere ("CREATE SCHEMA IF NOT EXISTS " ++ namespaceName),
    .createTable "__meridian_schema_registry_migration" registryMigrationColumns ["singleton"],
    .createTable "__meridian_schema_registry" registryColumns ["tenant", "scope"]]

/-! ## Plans -/

inductive PlanStatement where
  | ddl (statement : Statement)
  /-- The marker of the Schema registry, inserted once. -/
  | marker (format fingerprint : String)
deriving DecidableEq

structure MigrationPlan where
  statements : List PlanStatement
  planFingerprint : String
  physicalFingerprint : String
  resourceFingerprints : List (String × String)

/-- What a plan's fingerprint covers of a resource. -/
structure PlannedResource where
  profile : String
  ref : String
  resourceFingerprint : String
  schemaFingerprint : String

/-- SHA-256 over the texts of statements, over a plan, and over the registry's
own statements. -/
structure Digests where
  physical : List PlanStatement → String
  plan : String → List PlannedResource → String
  registry : String → String

def registryFormat : String := "meridian.postgresql.schema-registry.v1"

/-- The statements of one layout. -/
def layoutStatements (digests : Digests) (settings : PostgreSQLSettings)
    (layout : ResourceLayout) : Except String (List PlanStatement) :=
  if layout.isRegistry then
    .ok ((registryTables settings.physicalSchema.text).map .ddl ++
      [.marker registryFormat (digests.registry settings.physicalSchema.text)])
  else (resource settings layout).map fun statements => statements.map .ddl

/-- The tables that hold the adapter's own data. -/
def adapterStatements (settings : PostgreSQLSettings) : List Statement :=
  [.elsewhere "CREATE EXTENSION IF NOT EXISTS postgis",
    .elsewhere ("CREATE SCHEMA IF NOT EXISTS " ++ settings.physicalSchema.text),
    metadataTable, migrationTable] ++
    (if settings.resources.any fun layout => layout.ref.catalog = "evidence" then
      [evidenceReplayTable] else []) ++
    if settings.resources.any isOutbox then outboxTables else []

def PlannedResource.of (layout : ResourceLayout) : PlannedResource :=
  ⟨layout.profile, layout.ref.canonical, layout.resourceFingerprint, layout.schemaFingerprint⟩

/-- `SchemaCompiler.compile` -/
def compile (digests : Digests) (settings : PostgreSQLSettings) :
    Except String MigrationPlan :=
  if settings.readOnly then .error "read compatibility Binding is read-only"
  else do
    (settings.resources.filter isOutbox).forM validateLayout
    let layouts ← settings.resources.mapM (layoutStatements digests settings)
    let statements := (adapterStatements settings).map .ddl ++ layouts.flatten
    let physical := digests.physical statements
    .ok ⟨statements, digests.plan physical (settings.resources.map PlannedResource.of), physical,
      settings.resources.map fun layout => (layout.ref.canonical, layout.resourceFingerprint)⟩

end MeridianPostgreSQL.Schema
