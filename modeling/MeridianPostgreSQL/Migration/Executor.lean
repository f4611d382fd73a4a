import Mathlib.Data.List.Forall2
import MeridianPostgreSQL.Schema.Compiler

/-! # Executing a plan

`MigrationExecutor.apply` on the catalog, the metadata rows and the ledger of
one physical schema. The calls take turns under an advisory lock, and one that
raises leaves no trace. -/

namespace MeridianPostgreSQL.Migration

open Settings Catalogs Schema

/-- A row of `__meridian_resources`. -/
structure MetadataRow where
  ref : String
  resourceFingerprint : String
  schemaFingerprint : String
  profile : String
  physicalFingerprint : String
deriving DecidableEq

/-- A physical schema: its relations, the rows of its two metadata tables and
the marker of the Schema registry. -/
structure Database where
  catalog : Catalog
  resources : List MetadataRow
  migrations : List String
  marker : Option (String × String)

def Database.empty : Database := ⟨Catalog.empty, [], [], none⟩

structure Server where
  digests : Digests
  refuses : Catalog → Statement → Bool

structure MigrationEvidence where
  planFingerprint : String
  physicalFingerprint : String
  applied : Bool

/-! ## Checks -/

def registryFailure : String :=
  "Schema registry storage is missing, incompatible, or corrupt; Platform migration required"

/-- `verify_schema_repository` -/
def verifySchemaRepository (server : Server) (namespaceName : String) (database : Database) :
    Except String String :=
  let expected := server.digests.registry namespaceName
  if database.catalog.find "__meridian_schema_registry_migration" =
        some (.table registryMigrationColumns ["singleton"]) ∧
      database.catalog.find "__meridian_schema_registry" =
        some (.table registryColumns ["tenant", "scope"]) ∧
      database.marker = some (registryFormat, expected) then .ok expected
  else .error registryFailure

/-- `_verify_registry` -/
def verifyRegistry (server : Server) (settings : PostgreSQLSettings) (database : Database) :
    Except String Unit :=
  if settings.resources.any ResourceLayout.isRegistry then
    (verifySchemaRepository server settings.physicalSchema.text database).map fun _ => ()
  else .ok ()

/-- `_current_fingerprint` -/
def currentFingerprint (database : Database) : Except String (Option String) :=
  if database.catalog.find "__meridian_resources" = none then .ok none
  else
    match (database.resources.map MetadataRow.physicalFingerprint).dedup with
    | [] => .ok none
    | [value] => .ok (some value)
    | _ => .error "physical metadata contains divergent fingerprints"

/-- The fingerprint a caller expects. Nothing is expected of an empty schema. -/
def checkExpected (expected : Option String) (database : Database) : Except String Unit :=
  match expected with
  | none => .ok ()
  | some expected => do
      let observed ← currentFingerprint database
      match observed with
      | none => .ok ()
      | some observed =>
          if observed = expected then .ok ()
          else .error "physical fingerprint changed before migration"

/-! ## Statements -/

def runStatement (server : Server) (database : Database) :
    PlanStatement → Except String Database
  | .ddl statement =>
      match database.catalog.execute server.refuses statement with
      | some catalog => .ok { database with catalog := catalog }
      | none => .error "statement refused"
  | .marker format fingerprint =>
      if database.catalog.columnsOf "__meridian_schema_registry_migration" = none then
        .error "relation does not exist"
      else .ok { database with marker := database.marker.or (some (format, fingerprint)) }

def runStatements (server : Server) : Database → List PlanStatement → Except String Database
  | database, [] => .ok database
  | database, statement :: rest => do
      let next ← runStatement server database statement
      runStatements server next rest

/-- The row that an `INSERT ... ON CONFLICT DO UPDATE` leaves. -/
def upserted (rows : List MetadataRow) (row : MetadataRow) : List MetadataRow :=
  if row.ref ∈ rows.map MetadataRow.ref then
    rows.map fun old => if old.ref = row.ref then row else old
  else rows ++ [row]

/-- The row of a planned resource, for the executor's settings. -/
def plannedRow (settings : PostgreSQLSettings) (plan : MigrationPlan)
    (resource : String × String) : Except String MetadataRow :=
  match settings.layout resource.1 with
  | none => .error resource.1
  | some layout => .ok ⟨resource.1, resource.2, layout.schemaFingerprint, layout.profile,
      plan.physicalFingerprint⟩

def plannedRows (settings : PostgreSQLSettings) (plan : MigrationPlan) :
    Except String (List MetadataRow) :=
  plan.resourceFingerprints.mapM (plannedRow settings plan)

/-- What a plan that has run leaves in the metadata tables. -/
def recordPlan (settings : PostgreSQLSettings) (plan : MigrationPlan) (database : Database) :
    Except String Database := do
  let rows ← plannedRows settings plan
  if database.catalog.columnsOf "__meridian_resources" = none ∨
      database.catalog.columnsOf "__meridian_migrations" = none then
    .error "relation does not exist"
  else .ok { database with
    resources := rows.foldl upserted database.resources
    migrations := database.migrations ++ [plan.planFingerprint] }

def recorded (plan : MigrationPlan) (database : Database) : Bool :=
  (database.catalog.find "__meridian_migrations").isSome &&
    plan.planFingerprint ∈ database.migrations

/-- `MigrationExecutor.apply` -/
def apply (server : Server) (settings : PostgreSQLSettings) (plan : MigrationPlan)
    (expected : Option String) (database : Database) :
    Except String (MigrationEvidence × Database) :=
  if settings.readOnly then .error "read compatibility Binding is read-only"
  else do
    checkExpected expected database
    if recorded plan database then do
      verifyRegistry server settings database
      .ok (⟨plan.planFingerprint, plan.physicalFingerprint, false⟩, database)
    else do
      let migrated ← runStatements server database plan.statements
      verifyRegistry server settings migrated
      let next ← recordPlan settings plan migrated
      .ok (⟨plan.planFingerprint, plan.physicalFingerprint, true⟩, next)

/-! ## Accepted calls -/

theorem bind_eq_ok {α β : Type} {first : Except String α} {next : α → Except String β} {result : β}
    (accepted : first >>= next = .ok result) :
    ∃ value, first = .ok value ∧ next value = .ok result := by
  cases first with
  | error error => exact nomatch accepted
  | ok value => exact ⟨value, rfl, accepted⟩

theorem forall₂_of_mapM {α β : Type} {f : α → Except String β} {items : List α}
    {results : List β} (mapped : items.mapM f = .ok results) :
    List.Forall₂ (fun item result => f item = .ok result) items results := by
  induction items generalizing results with
  | nil =>
      cases mapped
      exact .nil
  | cons item rest induction =>
      rw [List.mapM_cons] at mapped
      rcases bind_eq_ok mapped with ⟨first, head, mapped⟩
      rcases bind_eq_ok mapped with ⟨others, tail, mapped⟩
      cases mapped
      exact .cons head (induction tail)

section Accepted

variable {server : Server} {settings : PostgreSQLSettings} {plan : MigrationPlan}
  {expected : Option String} {database next : Database} {evidence : MigrationEvidence}

/-- What a recorded plan has written. -/
theorem recordPlan_cases (accepted : recordPlan settings plan database = .ok next) :
    ∃ rows, plannedRows settings plan = .ok rows ∧
      database.catalog.columnsOf "__meridian_resources" ≠ none ∧
      database.catalog.columnsOf "__meridian_migrations" ≠ none ∧
      next = { database with
        resources := rows.foldl upserted database.resources
        migrations := database.migrations ++ [plan.planFingerprint] } := by
  rcases bind_eq_ok accepted with ⟨rows, planned, accepted⟩
  split at accepted
  · exact nomatch accepted
  · rename_i present
    rw [not_or] at present
    cases accepted
    exact ⟨rows, planned, present.1, present.2, rfl⟩

/-- What an accepted call has done. -/
theorem apply_cases (accepted : apply server settings plan expected database =
      .ok (evidence, next)) :
    checkExpected expected database = .ok () ∧
    evidence.physicalFingerprint = plan.physicalFingerprint ∧
    verifyRegistry server settings next = .ok () ∧
    ((recorded plan database = true ∧ evidence.applied = false ∧ next = database) ∨
      (recorded plan database = false ∧ evidence.applied = true ∧ ∃ migrated,
        runStatements server database plan.statements = .ok migrated ∧
        recordPlan settings plan migrated = .ok next)) := by
  unfold apply at accepted
  split at accepted
  · exact nomatch accepted
  · rcases bind_eq_ok accepted with ⟨_, checked, accepted⟩
    split at accepted
    · rename_i known
      rcases bind_eq_ok accepted with ⟨_, verified, accepted⟩
      cases accepted
      exact ⟨checked, rfl, verified, .inl ⟨known, rfl, rfl⟩⟩
    · rename_i unknown
      rcases bind_eq_ok accepted with ⟨migrated, ran, accepted⟩
      rcases bind_eq_ok accepted with ⟨_, verified, accepted⟩
      rcases bind_eq_ok accepted with ⟨result, recordedOk, accepted⟩
      cases accepted
      have same : verifyRegistry server settings next = verifyRegistry server settings migrated := by
        rcases recordPlan_cases recordedOk with ⟨rows, _, _, _, rfl⟩
        rfl
      exact ⟨checked, rfl, same.trans verified,
        .inr ⟨eq_false_of_ne_true unknown, rfl, migrated, ran, recordedOk⟩⟩

theorem runStatements_cons {statement : PlanStatement} {rest : List PlanStatement}
    (ran : runStatements server database (statement :: rest) = .ok next) :
    ∃ middle, runStatement server database statement = .ok middle ∧
      runStatements server middle rest = .ok next := by
  rw [runStatements] at ran
  exact bind_eq_ok ran

theorem runStatement_metadata {statement : PlanStatement}
    (ran : runStatement server database statement = .ok next) :
    next.resources = database.resources ∧ next.migrations = database.migrations := by
  cases statement with
  | ddl statement =>
      unfold runStatement at ran
      dsimp only at ran
      split at ran
      · cases ran
        exact ⟨rfl, rfl⟩
      · exact nomatch ran
  | marker format fingerprint =>
      unfold runStatement at ran
      dsimp only at ran
      split at ran
      · exact nomatch ran
      · cases ran
        exact ⟨rfl, rfl⟩

/-- The statements of a plan do not touch the metadata rows. -/
theorem runStatements_metadata {statements : List PlanStatement}
    (ran : runStatements server database statements = .ok next) :
    next.resources = database.resources ∧ next.migrations = database.migrations := by
  induction statements generalizing database with
  | nil =>
      cases ran
      exact ⟨rfl, rfl⟩
  | cons statement rest induction =>
      rcases runStatements_cons ran with ⟨middle, head, tail⟩
      rcases runStatement_metadata head with ⟨rows, ledger⟩
      rcases induction tail with ⟨laterRows, laterLedger⟩
      exact ⟨laterRows.trans rows, laterLedger.trans ledger⟩

end Accepted

end MeridianPostgreSQL.Migration
