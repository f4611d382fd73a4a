import Mathlib.Data.List.Nodup
import Mathlib.Data.List.Defs

/-! # Layouts

The physical layout of a Binding's Resources, and what the settings parser
requires of it. -/

namespace MeridianPostgreSQL.Settings

/-! ## Identifiers -/

def identifierStart (character : Char) : Bool :=
  ('a' ≤ character && character ≤ 'z') || character = '_'

def identifierPart (character : Char) : Bool :=
  identifierStart character || ('0' ≤ character && character ≤ '9')

/-- `^[a-z_][a-z0-9_]{0,62}$` -/
def isIdentifier (text : String) : Bool :=
  match text.toList with
  | [] => false
  | first :: rest =>
      identifierStart first && rest.all identifierPart && rest.length ≤ 62

/-- A lower-case PostgreSQL identifier. -/
structure Identifier where
  text : String
  valid : isIdentifier text = true
deriving DecidableEq

theorem Identifier.ext {left right : Identifier} (same : left.text = right.text) :
    left = right := by
  cases left
  cases right
  cases same
  rfl

theorem identifierPart_of_start {character : Char} (start : identifierStart character = true) :
    identifierPart character = true := by
  rw [identifierPart, start, Bool.true_or]

/-- Every character of an identifier is a letter, a digit or an underscore. -/
theorem Identifier.parts (identifier : Identifier) {character : Char}
    (member : character ∈ identifier.text.toList) : identifierPart character = true := by
  have valid := identifier.valid
  unfold isIdentifier at valid
  cases characters : identifier.text.toList with
  | nil => simp [characters] at member
  | cons first rest =>
      simp only [characters, Bool.and_eq_true, List.all_eq_true] at valid
      rw [characters] at member
      rcases List.mem_cons.mp member with rfl | later
      · exact identifierPart_of_start valid.1.1
      · exact valid.1.2 character later

/-! ## Fields -/

inductive LogicalType where
  | boolean
  | bytes
  | date
  | decimal
  | duration
  | enum
  | float64
  | int8
  | int16
  | int32
  | int64
  | json
  | objectRef
  | recordRef
  | string
  | utcTimestamp
  | uuid
  | wgs84Point
deriving DecidableEq

inductive Cardinality where
  | one
  | many
deriving DecidableEq

structure FieldLayout where
  name : String
  column : Identifier
  logicalType : LogicalType
  nullable : Bool
  mutable : Bool
  cardinality : Cardinality
  precision : Option Int
  scale : Option Int
deriving DecidableEq

/-- `FieldLayout.from_mapping`, past the types of the members. -/
def FieldLayout.check (path : String) (field : FieldLayout) : Except String Unit :=
  if field.name = "" then .error s!"{path}.name must be non-empty"
  else if field.logicalType = .decimal then
    match field.precision, field.scale with
    | some precision, some scale =>
        if 1 ≤ precision ∧ precision ≤ 1000 ∧ 0 ≤ scale ∧ scale ≤ precision then .ok ()
        else .error s!"{path} decimal requires valid precision and scale"
    | _, _ => .error s!"{path} decimal requires valid precision and scale"
  else if field.precision ≠ none ∨ field.scale ≠ none then
    .error s!"{path} precision and scale are valid only for decimal"
  else .ok ()

/-- The values of the field are stored as `jsonb`. -/
def FieldLayout.isJson (field : FieldLayout) : Bool :=
  field.cardinality = .many ||
    (field.logicalType = .json || field.logicalType = .recordRef ||
      field.logicalType = .objectRef)

/-- The field is read back as coordinates. -/
def FieldLayout.isPoint (field : FieldLayout) : Bool :=
  field.logicalType = .wgs84Point && field.cardinality = .one

/-! ## Indexes and relations -/

inductive IndexKind where
  | btree
  | hash
  | fullText
  | geospatial
  | relationEndpoint
  | timeSeries
deriving DecidableEq

structure IndexLayout where
  name : Identifier
  kind : IndexKind
  fields : List String
  unique : Bool
deriving DecidableEq

/-- `IndexLayout.from_mapping`, past the types of the members. -/
def IndexLayout.check (path : String) (index : IndexLayout) : Except String Unit :=
  if index.fields = [] ∨ ¬ index.fields.Nodup ∨ "" ∈ index.fields then
    .error s!"{path}.fields must be non-empty and unique"
  else if index.unique = true ∧ index.kind ≠ .btree then
    .error s!"{path}.unique is supported only for btree indexes"
  else .ok ()

structure RelationLayout where
  sourceField : String
  targetField : String
  directed : Bool
  sourceCollections : List String
  targetCollections : List String
deriving DecidableEq

/-- `RelationLayout.from_mapping`, past the types of the members. -/
def RelationLayout.check (path : String) (relation : RelationLayout) : Except String Unit :=
  if relation.sourceField = relation.targetField then
    .error s!"{path} requires distinct source and target fields"
  else if relation.sourceCollections = [] ∨ relation.targetCollections = [] ∨
      ¬ relation.sourceCollections.Nodup ∨ ¬ relation.targetCollections.Nodup then
    .error s!"{path} endpoint collections must be non-empty and unique"
  else .ok ()

/-! ## Resources -/

structure ResourceRef where
  catalog : String
  namespaceName : String
  name : String
deriving DecidableEq

def ResourceRef.canonical (ref : ResourceRef) : String :=
  ref.catalog ++ ":" ++ ref.namespaceName ++ "." ++ ref.name

structure ResourceLayout where
  ref : ResourceRef
  table : Identifier
  profile : String
  schemaFingerprint : String
  resourceFingerprint : String
  fields : List FieldLayout
  identity : List String
  indexes : List IndexLayout
  relation : Option RelationLayout
deriving DecidableEq

namespace ResourceLayout

/-- `field_map` -/
def field (layout : ResourceLayout) (name : String) : Option FieldLayout :=
  layout.fields.find? fun field => field.name = name

def fieldNames (layout : ResourceLayout) : List String :=
  layout.fields.map FieldLayout.name

/-- The profile that stands for the Schema registry. -/
def isRegistry (layout : ResourceLayout) : Bool := layout.profile = "metadata-registry"

def structuredProfiles : List String :=
  ["relational", "document", "key-value", "search", "geospatial", "time-series", "relation"]

def reservedTables : List String :=
  ["__meridian_migrations", "__meridian_resources", "__meridian_evidence_replay",
    "__meridian_outbox_state", "__meridian_outbox_checkpoint",
    "__meridian_schema_registry", "__meridian_schema_registry_migration"]

def reservedColumns : List String :=
  ["__tenant", "__record_version", "__created_at", "__updated_at",
    "__source_collection", "__source_record_id", "__target_collection",
    "__target_record_id"]

def checkIndex (layout : ResourceLayout) (index : IndexLayout) : Except String Unit :=
  let selected := index.fields.filterMap layout.field
  let scalarOf := fun (logicalType : LogicalType) => selected.length = 1 ∧
    ∀ field ∈ selected, field.logicalType = logicalType ∧ field.cardinality = .one
  if ¬ index.fields ⊆ layout.fieldNames then
    .error s!"{layout.ref.canonical}: index references an undeclared field"
  else if index.kind = .fullText ∧ ¬ scalarOf .string then
    .error s!"{layout.ref.canonical}: full-text index requires one scalar string field"
  else if index.kind = .geospatial ∧ ¬ scalarOf .wgs84Point then
    .error s!"{layout.ref.canonical}: geospatial index requires one WGS84 point field"
  else if index.kind = .relationEndpoint then
    match layout.relation with
    | none =>
        .error s!"{layout.ref.canonical}: relation endpoint index requires a relation layout"
    | some relation =>
        if index.fields = [relation.sourceField] ∨ index.fields = [relation.targetField] then
          .ok ()
        else
          .error s!"{layout.ref.canonical}: relation endpoint index must select one endpoint"
  else .ok ()

def checkRelation (layout : ResourceLayout) : Except String Unit :=
  match layout.relation with
  | none =>
      if layout.profile = "relation" then
        .error s!"{layout.ref.canonical}: relation profile and endpoint mapping must agree"
      else .ok ()
  | some relation =>
      if ¬ [relation.sourceField, relation.targetField] ⊆ layout.fieldNames then
        .error s!"{layout.ref.canonical}: relation endpoints must reference declared fields"
      else if layout.profile ≠ "relation" then
        .error s!"{layout.ref.canonical}: relation profile and endpoint mapping must agree"
      else if ∃ field ∈ [relation.sourceField, relation.targetField].filterMap layout.field,
          field.logicalType ≠ .recordRef ∨ field.cardinality ≠ .one ∨ field.nullable then
        .error s!"{layout.ref.canonical}: relation endpoints must be non-null RecordRefs"
      else .ok ()

/-- `__post_init__` -/
def check (layout : ResourceLayout) : Except String Unit :=
  if layout.isRegistry then
    if layout.ref.canonical ≠ "structured:meridian.registry" ∨
        layout.table.text ≠ "__meridian_schema_registry" ∨ layout.fields ≠ [] ∨
        layout.identity ≠ [] ∨ layout.indexes ≠ [] ∨ layout.relation ≠ none then
      .error "metadata registry requires its fixed Resource/table and no data layout"
    else .ok ()
  else if ¬ layout.fieldNames.Nodup ∨ ¬ (layout.fields.map FieldLayout.column).Nodup then
    .error s!"{layout.ref.canonical}: logical fields and physical columns must be unique"
  else if layout.identity = [] ∨ ¬ layout.identity.Nodup ∨
      ¬ layout.identity ⊆ layout.fieldNames then
    .error s!"{layout.ref.canonical}: identity must reference declared fields"
  else if layout.ref.catalog ∉ ["structured", "evidence"] then
    .error s!"{layout.ref.canonical}: PostgreSQL supports only structured and evidence"
  else if layout.table.text ∈ reservedTables then
    .error s!"{layout.ref.canonical}: table name is reserved for Adapter metadata"
  else if ∃ field ∈ layout.fields, field.column.text ∈ reservedColumns ∨
      "__scope_".toList <+: field.column.text.toList then
    .error s!"{layout.ref.canonical}: field column collides with an Adapter-owned column"
  else if ∃ field ∈ layout.identity.filterMap layout.field,
      field.nullable ∨ field.mutable ∨ field.cardinality ≠ .one then
    .error s!"{layout.ref.canonical}: identity fields must be immutable non-null scalars"
  else if ¬ (layout.indexes.map IndexLayout.name).Nodup then
    .error s!"{layout.ref.canonical}: index names must be unique"
  else do
    layout.indexes.forM layout.checkIndex
    if layout.ref.catalog = "structured" ∧ layout.profile ∉ structuredProfiles then
      throw s!"{layout.ref.canonical}: structured profile is unsupported"
    if layout.ref.catalog = "evidence" ∧ layout.profile ≠ "append-only-evidence" then
      throw s!"{layout.ref.canonical}: evidence profile must be append-only-evidence"
    layout.checkRelation

end ResourceLayout

/-! ## Settings -/

/-- What the compilers read of `PostgreSQLSettings`. -/
structure PostgreSQLSettings where
  physicalSchema : Identifier
  scopeKeys : List Identifier
  resources : List ResourceLayout
  readOnly : Bool
deriving DecidableEq

/-- `layout` -/
def PostgreSQLSettings.layout (settings : PostgreSQLSettings) (canonical : String) :
    Option ResourceLayout :=
  settings.resources.find? fun layout => layout.ref.canonical = canonical

def PostgreSQLSettings.scopeColumns (settings : PostgreSQLSettings) : List String :=
  "__tenant" :: settings.scopeKeys.map fun key => "__scope_" ++ key.text

/-- `ResourceLayout.from_mapping`, past the types of the members. -/
def ResourceLayout.fromMapping (path : String) (layout : ResourceLayout) : Except String Unit := do
  layout.fields.zipIdx.forM fun entry => entry.1.check s!"{path}.fields[{entry.2}]"
  layout.indexes.zipIdx.forM fun entry => entry.1.check s!"{path}.indexes[{entry.2}]"
  layout.relation.forM fun relation => relation.check s!"{path}.relation"
  layout.check

/-- `from_binding`, for what the compilers read. -/
def PostgreSQLSettings.check (settings : PostgreSQLSettings) : Except String Unit :=
  if ¬ settings.scopeKeys.Nodup then .error "scope keys must be unique"
  else do
    settings.resources.zipIdx.forM fun entry =>
      entry.1.fromMapping s!"binding.settings.resources[{entry.2}]"
    if settings.resources = [] ∨
        ¬ (settings.resources.map fun layout => layout.ref.canonical).Nodup then
      .error "resource layouts must be non-empty and unique"
    else if ¬ (settings.resources.map ResourceLayout.table).Nodup then
      .error "resource layouts must use unique physical tables"
    else .ok ()

/-! ## A sample Binding -/

theorem isIdentifier_id : isIdentifier "id" = true := by decide

theorem isIdentifier_state : isIdentifier "state" = true := by decide

theorem isIdentifier_priority : isIdentifier "priority" = true := by decide

theorem isIdentifier_meridianTest : isIdentifier "meridian_test" = true := by decide

theorem isIdentifier_workspace : isIdentifier "workspace" = true := by decide

/-- The work queue of the test Bindings. -/
def workLayout : ResourceLayout where
  ref := ⟨"structured", "example", "work"⟩
  table := ⟨"work_items", by decide⟩
  profile := "key-value"
  schemaFingerprint := "work-schema-v1"
  resourceFingerprint := "work-resource-v1"
  fields := [
    ⟨"id", ⟨"id", isIdentifier_id⟩, .uuid, false, false, .one, none, none⟩,
    ⟨"state", ⟨"state", isIdentifier_state⟩, .string, false, true, .one, none, none⟩,
    ⟨"owner", ⟨"owner", by decide⟩, .string, true, true, .one, none, none⟩,
    ⟨"priority", ⟨"priority", isIdentifier_priority⟩, .int32, false, true, .one, none, none⟩]
  identity := ["id"]
  indexes := [⟨⟨"claim_idx", by decide⟩, .btree, ["state", "priority"], false⟩]
  relation := none

def workSettings : PostgreSQLSettings where
  physicalSchema := ⟨"meridian_test", isIdentifier_meridianTest⟩
  scopeKeys := [⟨"workspace", isIdentifier_workspace⟩]
  resources := [workLayout]
  readOnly := false

example : workSettings.check = .ok () := by decide

end MeridianPostgreSQL.Settings
