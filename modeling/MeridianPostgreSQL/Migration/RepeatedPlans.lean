import MeridianPostgreSQL.Foundation.GrowingCatalogs
import MeridianPostgreSQL.Migration.ShapeEvolution

/-! # Repeated plans

What deployments leave of each other. Plans only add to a schema, so one that
was applied stays in force under any later ones, and to run its statements
again changes nothing. -/

namespace MeridianPostgreSQL.Migration

open Settings Catalogs Schema

/-! ## Histories -/

/-- What happens to a physical schema. Rows come and go between deployments. -/
inductive SchemaEvent where
  | deploy (call : Call)
  | write (populated : List String)

/-- A deployment that raises leaves no trace. -/
def SchemaEvent.next (server : Server) (database : Database) : SchemaEvent → Database
  | .deploy call =>
      match call.apply server database with
      | .ok (_, next) => next
      | .error _ => database
  | .write populated => database.withRows populated

def history (server : Server) (database : Database) (events : List SchemaEvent) : Database :=
  events.foldl (SchemaEvent.next server) database

/-! ## Growth -/

/-- A schema with at least the relations of another, and its marker. -/
structure Retains (before after : Database) : Prop where
  catalog : before.catalog.Extends after.catalog
  marker : before.marker.isSome = true → after.marker = before.marker

theorem Retains.refl (database : Database) : Retains database database :=
  ⟨.refl _, fun _ => rfl⟩

theorem Retains.trans {first second third : Database} (before : Retains first second)
    (after : Retains second third) : Retains first third := by
  refine ⟨before.catalog.trans after.catalog, ?_⟩
  intro present
  rw [after.marker (before.marker present ▸ present), before.marker present]

section Growth

variable {server : Server} {database next : Database} {statements : List PlanStatement}

theorem runStatement_grown {statement : PlanStatement}
    (ran : runStatement server database statement = .ok next) : Retains database next := by
  cases statement with
  | ddl ddl =>
      refine ⟨Catalog.perform_extends (Catalog.execute_performs (runStatement_ddl ran)).2, ?_⟩
      intro _
      unfold runStatement at ran
      dsimp only at ran
      split at ran
      · cases ran
        rfl
      · cases ran
  | marker format fingerprint =>
      refine ⟨?_, ?_⟩
      · rw [runStatement_marker ran]
        exact .refl _
      · intro present
        obtain ⟨marker, held⟩ := Option.isSome_iff_exists.mp present
        unfold runStatement at ran
        dsimp only at ran
        split at ran
        · cases ran
        · cases ran
          rw [held]
          rfl

theorem runStatements_grown (ran : runStatements server database statements = .ok next) :
    Retains database next := by
  induction statements generalizing database with
  | nil =>
      cases ran
      exact .refl _
  | cons statement rest induction =>
      obtain ⟨middle, head, tail⟩ := runStatements_cons ran
      exact (runStatement_grown head).trans (induction tail)

theorem apply_grown {call : Call} {evidence : MigrationEvidence}
    (ran : call.apply server database = .ok (evidence, next)) : Retains database next := by
  rcases apply_cases ran with ⟨_, _, _, ⟨_, _, rfl⟩ | ⟨_, _, migrated, statements, written⟩⟩
  · exact .refl _
  · obtain ⟨rows, _, _, _, rfl⟩ := recordPlan_cases written
    have grown := runStatements_grown statements
    exact ⟨grown.catalog, grown.marker⟩

theorem extends_withRows (populated : List String) : Retains database (database.withRows populated) :=
  ⟨fun _ relation found => ⟨relation, found, .refl relation⟩, fun _ => rfl⟩

theorem event_grown (event : SchemaEvent) : Retains database (event.next server database) := by
  cases event with
  | deploy call =>
      cases ran : call.apply server database with
      | error error =>
          rw [SchemaEvent.next, ran]
          exact .refl _
      | ok result =>
          obtain ⟨evidence, next⟩ := result
          rw [SchemaEvent.next, ran]
          exact apply_grown ran
  | write populated => exact extends_withRows populated

theorem history_grown (events : List SchemaEvent) :
    Retains database (history server database events) := by
  induction events generalizing database with
  | nil => exact .refl _
  | cons event rest induction => exact (event_grown event).trans induction

end Growth

/-! ## Statements in force -/

/-- A statement of a plan has nothing left to do. -/
def InForce (database : Database) : PlanStatement → Prop
  | .ddl statement => database.catalog.Settled statement
  | .marker _ _ => database.marker.isSome = true ∧
      database.catalog.columnsOf "__meridian_schema_registry_migration" ≠ none

section Force

variable {server : Server} {database next : Database} {statements : List PlanStatement}

theorem InForce.mono {statement : PlanStatement} (settled : InForce database statement)
    (grown : Retains database next) : InForce next statement := by
  cases statement with
  | ddl ddl => exact Catalog.Settled.mono settled grown.catalog
  | marker format fingerprint =>
      refine ⟨grown.marker settled.1 ▸ settled.1, ?_⟩
      obtain ⟨columns, held⟩ := Option.ne_none_iff_exists'.mp settled.2
      obtain ⟨primary, found⟩ := Catalog.find_of_columnsOf held
      obtain ⟨more, kept⟩ := grown.catalog.table found
      rw [Catalog.columnsOf_eq kept]
      exact Option.some_ne_none _

theorem runStatement_inForce {statement : PlanStatement}
    (ran : runStatement server database statement = .ok next) : InForce next statement := by
  cases statement with
  | ddl ddl => exact Catalog.perform_settled (Catalog.execute_performs (runStatement_ddl ran)).2
  | marker format fingerprint =>
      unfold runStatement at ran
      dsimp only at ran
      split at ran
      · cases ran
      · rename_i present
        cases ran
        refine ⟨?_, present⟩
        cases database.marker <;> rfl

theorem runStatements_inForce (ran : runStatements server database statements = .ok next) :
    ∀ statement ∈ statements, InForce next statement := by
  induction statements generalizing database with
  | nil => exact List.forall_mem_nil _
  | cons statement rest induction =>
      obtain ⟨middle, head, tail⟩ := runStatements_cons ran
      intro other listed
      rcases List.mem_cons.mp listed with rfl | later
      · exact (runStatement_inForce head).mono (runStatements_grown tail)
      · exact induction tail other later

/-- Statements in force change nothing when they are run again. -/
theorem runStatements_again (settled : ∀ statement ∈ statements, InForce database statement)
    (willing : ∀ ddl, .ddl ddl ∈ statements → server.refuses database.catalog ddl = false) :
    runStatements server database statements = .ok database := by
  induction statements with
  | nil => rfl
  | cons statement rest induction =>
      have here : runStatement server database statement = .ok database := by
        have force := settled statement List.mem_cons_self
        cases statement with
        | ddl ddl =>
            have executed : database.catalog.execute server.refuses ddl =
                some database.catalog := by
              rw [Catalog.execute, willing ddl List.mem_cons_self]
              exact Catalog.perform_again force
            rw [runStatement, executed]
        | marker format fingerprint =>
            obtain ⟨marker, held⟩ := Option.isSome_iff_exists.mp force.1
            rw [runStatement, if_neg force.2, held, Option.some_or, ← held]
      rw [runStatements, here]
      exact induction (fun other listed => settled other (List.mem_cons_of_mem _ listed))
        fun ddl listed => willing ddl (List.mem_cons_of_mem _ listed)

end Force

/-- Over any history, deployments keep every table with its columns and key and
every index, and a plan that was applied stays in force: its statements would
change nothing, whatever came after and whatever rows there are. -/
theorem plan_stays {server : Server} {database applied : Database} {call : Call}
    {evidence : MigrationEvidence} (ran : call.apply server database = .ok (evidence, applied))
    (new : evidence.applied = true) (events : List SchemaEvent) :
    database.catalog.Extends (history server applied events).catalog ∧
    ((∀ ddl, .ddl ddl ∈ call.plan.statements →
        server.refuses (history server applied events).catalog ddl = false) →
      runStatements server (history server applied events) call.plan.statements =
        .ok (history server applied events)) := by
  have later : Retains applied (history server applied events) := history_grown events
  refine ⟨((apply_grown ran).trans later).catalog, runStatements_again ?_⟩
  intro statement listed
  rcases apply_cases ran with ⟨_, _, _, ⟨_, unapplied, _⟩ | ⟨_, _, migrated, statements, written⟩⟩
  · rw [new] at unapplied
    cases unapplied
  · obtain ⟨rows, _, _, _, rfl⟩ := recordPlan_cases written
    have force := runStatements_inForce statements statement listed
    apply InForce.mono _ later
    cases statement with
    | ddl ddl => exact force
    | marker format fingerprint => exact force

/-- The queue's plan under one that adds a field. -/
theorem plan_stays_noted : ∃ applied,
    runStatements kindServer (history kindServer applied
        [.write ["work_items"], .deploy ⟨notedSettings, kindPlan notedSettings, none⟩])
        (kindPlan workSettings).statements =
      .ok (history kindServer applied
        [.write ["work_items"], .deploy ⟨notedSettings, kindPlan notedSettings, none⟩]) := by
  obtain ⟨before, applied, first, _⟩ := workDatabase_applied
  have new : before.applied = true := by
    rcases apply_cases first with ⟨_, _, _, ⟨known, _⟩ | ⟨_, done, _⟩⟩
    · cases known
    · exact done
  have ran : Call.apply kindServer ⟨workSettings, kindPlan workSettings, none⟩ .empty =
      .ok (before, applied) := first
  exact ⟨applied, (plan_stays ran new _).2 fun _ _ => rfl⟩

end MeridianPostgreSQL.Migration
