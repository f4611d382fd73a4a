import Mathlib.Data.List.Dedup
import MeridianPostgreSQL.Settings.CheckedLayouts
import MeridianPostgreSQL.Migration.Executor

/-! # Ledger coherence

Whether the metadata rows describe the plan that a call has just confirmed,
over any sequence of calls on one physical schema. -/

namespace MeridianPostgreSQL.Migration

open Settings Catalogs Schema

/-! ## Rows -/

def rowOf (rows : List MetadataRow) (ref : String) : Option MetadataRow :=
  rows.find? fun row => row.ref = ref

section Rows

variable {rows added : List MetadataRow} {row : MetadataRow}

theorem rowOf_upserted (ref : String) :
    rowOf (upserted rows row) ref = if ref = row.ref then some row else rowOf rows ref := by
  unfold upserted
  split
  · rename_i present
    have kept : ((fun old : MetadataRow => decide (old.ref = ref)) ∘
        fun old => if old.ref = row.ref then row else old) = fun old => decide (old.ref = ref) := by
      funext old
      by_cases same : old.ref = row.ref
      · simp [same]
      · simp [same]
    rw [rowOf, List.find?_map, kept]
    cases found : rows.find? fun old => decide (old.ref = ref) with
    | none =>
        have different : ref ≠ row.ref := by
          rintro rfl
          rcases List.mem_map.mp present with ⟨old, listed, same⟩
          simpa [same] using List.find?_eq_none.mp found old listed
        simp [rowOf, found, different]
    | some old =>
        have named := List.find?_some found
        simp only [decide_eq_true_eq] at named
        subst named
        by_cases same : old.ref = row.ref
        · simp [same]
        · simp [rowOf, found, same]
  · rename_i absent
    unfold rowOf
    rw [List.find?_append]
    cases found : rows.find? fun old => decide (old.ref = ref) with
    | none =>
        by_cases same : ref = row.ref
        · simp [same]
        · simp [same, eq_comm]
    | some old =>
        have named := List.find?_some found
        simp only [decide_eq_true_eq] at named
        have different : ref ≠ row.ref := by
          rintro rfl
          exact absent (List.mem_map.mpr ⟨old, List.mem_of_find?_eq_some found, named⟩)
        simp [different]

theorem refs_upserted (distinct : (rows.map MetadataRow.ref).Nodup) :
    ((upserted rows row).map MetadataRow.ref).Nodup := by
  unfold upserted
  split
  · have same : (rows.map fun old => if old.ref = row.ref then row else old).map
        MetadataRow.ref = rows.map MetadataRow.ref := by
      rw [List.map_map]
      apply List.map_congr_left
      intro old _
      by_cases same : old.ref = row.ref
      · simp [same]
      · simp [same]
    rw [same]
    exact distinct
  · rename_i absent
    rw [List.map_append, List.map_singleton]
    apply distinct.append (List.nodup_singleton _)
    intro ref inside last
    exact absent (List.mem_singleton.mp last ▸ inside)

theorem refs_foldl (distinct : (rows.map MetadataRow.ref).Nodup) :
    ((added.foldl upserted rows).map MetadataRow.ref).Nodup := by
  induction added generalizing rows with
  | nil => exact distinct
  | cons first rest induction => exact induction (refs_upserted distinct)

theorem rowOf_cons (first : MetadataRow) (rest : List MetadataRow) (ref : String) :
    rowOf (first :: rest) ref = if first.ref = ref then some first else rowOf rest ref := by
  by_cases same : first.ref = ref
  · simp [rowOf, same]
  · simp [rowOf, same]

theorem rowOf_eq_none {ref : String} : rowOf rows ref = none ↔ ref ∉ rows.map MetadataRow.ref := by
  simp only [rowOf, List.find?_eq_none, decide_eq_true_eq, List.mem_map, not_exists, not_and]

/-- A plan's rows replace those of its resources. -/
theorem rowOf_foldl (distinct : (added.map MetadataRow.ref).Nodup) (ref : String) :
    rowOf (added.foldl upserted rows) ref = (rowOf added ref).or (rowOf rows ref) := by
  induction added generalizing rows with
  | nil => rfl
  | cons first rest induction =>
      rw [List.map_cons, List.nodup_cons] at distinct
      rw [List.foldl_cons, induction distinct.2, rowOf_upserted]
      rw [rowOf_cons]
      by_cases same : first.ref = ref
      · subst ref
        rw [rowOf_eq_none.mpr distinct.1, if_pos rfl, if_pos rfl]
        rfl
      · rw [if_neg same, if_neg fun equal => same equal.symm]

theorem mem_iff_rowOf (distinct : (rows.map MetadataRow.ref).Nodup) :
    row ∈ rows ↔ rowOf rows row.ref = some row := by
  constructor
  · intro listed
    cases found : rowOf rows row.ref with
    | none => simpa using List.find?_eq_none.mp found row listed
    | some other =>
        have named := List.find?_some found
        simp only [decide_eq_true_eq] at named
        rw [List.inj_on_of_nodup_map distinct (List.mem_of_find?_eq_some found) listed named]
  · exact List.mem_of_find?_eq_some

end Rows

/-! ## Calls -/

structure Call where
  settings : PostgreSQLSettings
  plan : MigrationPlan
  expected : Option String

/-- The executor runs plans that the compiler makes of accepted settings. -/
def Call.Accepted (server : Server) (call : Call) : Prop :=
  ∃ settings : PostgreSQLSettings, settings.check = .ok () ∧
    compile server.digests settings = .ok call.plan

def Call.apply (server : Server) (call : Call) (database : Database) :
    Except String (MigrationEvidence × Database) :=
  Migration.apply server call.settings call.plan call.expected database

/-- The database after the calls, the latest first. -/
def reached (server : Server) : List Call → Database
  | [] => .empty
  | call :: earlier =>
      match call.apply server (reached server earlier) with
      | .ok (_, next) => next
      | .error _ => reached server earlier

/-- A plan that has been recorded: its physical fingerprint and its rows. -/
structure Record where
  physicalFingerprint : String
  rows : List MetadataRow

/-- The plans that the calls have recorded, the latest first. -/
def records (server : Server) : List Call → List Record
  | [] => []
  | call :: earlier =>
      match call.apply server (reached server earlier), plannedRows call.settings call.plan with
      | .ok (evidence, _), .ok rows =>
          if evidence.applied then
            ⟨call.plan.physicalFingerprint, rows⟩ :: records server earlier
          else records server earlier
      | _, _ => records server earlier

def lastRow (records : List Record) (ref : String) : Option MetadataRow :=
  records.findSome? fun record => rowOf record.rows ref

/-- The metadata describe the plan: every row carries its physical
fingerprint, each of its resources has its row, and a next call may expect its
fingerprint. -/
structure Coherent (settings : PostgreSQLSettings) (plan : MigrationPlan)
    (database : Database) : Prop where
  physical : ∀ row ∈ database.resources, row.physicalFingerprint = plan.physicalFingerprint
  planned : ∀ resource ∈ plan.resourceFingerprints, ∃ row ∈ database.resources,
    plannedRow settings plan resource = .ok row
  expected : checkExpected (some plan.physicalFingerprint) database = .ok ()

/-- What keeps the metadata coherent. A new plan may leave out a resource only
if that was recorded with the plan's physical fingerprint. A plan that was
recorded before must have the physical fingerprint of the one recorded last,
and what was recorded last of its resources. -/
def Keeps (server : Server) (call : Call) (earlier : List Call) : Prop :=
  if recorded call.plan (reached server earlier) then
    (∀ last ∈ (records server earlier).head?,
      last.physicalFingerprint = call.plan.physicalFingerprint) ∧
    ∀ resource ∈ call.plan.resourceFingerprints,
      ∃ row, lastRow (records server earlier) resource.1 = some row ∧
        plannedRow call.settings call.plan resource = .ok row
  else
    ∀ row ∈ (reached server earlier).resources,
      row.ref ∉ call.plan.resourceFingerprints.map Prod.fst →
        row.physicalFingerprint = call.plan.physicalFingerprint

/-- A property of each call that returns evidence, in the order of a run. -/
def EveryCall (server : Server) (property : Call → List Call → Prop) : List Call → Prop
  | [] => True
  | call :: earlier =>
      (∀ evidence next, call.apply server (reached server earlier) = .ok (evidence, next) →
        property call earlier) ∧ EveryCall server property earlier

/-! ## Plans -/

section Plans

variable {server : Server} {settings : PostgreSQLSettings} {plan : MigrationPlan}
  {rows : List MetadataRow} {call : Call}

theorem plannedRow_ref {resource : String × String} {row : MetadataRow}
    (planned : plannedRow settings plan resource = .ok row) :
    row.ref = resource.1 ∧ row.physicalFingerprint = plan.physicalFingerprint := by
  unfold plannedRow at planned
  split at planned
  · exact nomatch planned
  · cases planned
    exact ⟨rfl, rfl⟩

theorem plannedRows_refs (planned : plannedRows settings plan = .ok rows) :
    rows.map MetadataRow.ref = plan.resourceFingerprints.map Prod.fst := by
  have each := forall₂_of_mapM planned
  clear planned
  generalize plan.resourceFingerprints = resources at each
  induction each with
  | nil => rfl
  | cons head _ induction => rw [List.map_cons, List.map_cons, (plannedRow_ref head).1, induction]

theorem plannedRows_physical (planned : plannedRows settings plan = .ok rows) :
    ∀ row ∈ rows, row.physicalFingerprint = plan.physicalFingerprint := by
  have each := forall₂_of_mapM planned
  clear planned
  generalize plan.resourceFingerprints = resources at each
  induction each with
  | nil => exact nofun
  | cons head _ induction =>
      intro row listed
      rcases List.mem_cons.mp listed with rfl | later
      · exact (plannedRow_ref head).2
      · exact induction row later

theorem plannedRows_mem (planned : plannedRows settings plan = .ok rows) :
    ∀ resource ∈ plan.resourceFingerprints, ∃ row ∈ rows,
      plannedRow settings plan resource = .ok row := by
  have each := forall₂_of_mapM planned
  clear planned
  generalize plan.resourceFingerprints = resources at each
  induction each with
  | nil => exact nofun
  | cons head _ induction =>
      intro resource listed
      rcases List.mem_cons.mp listed with rfl | later
      · exact ⟨_, List.mem_cons_self, head⟩
      · rcases induction resource later with ⟨row, inside, planned⟩
        exact ⟨row, List.mem_cons_of_mem _ inside, planned⟩

/-- A compiled plan has at least one resource, and none twice. -/
theorem compile_resources {digests : Digests} (checked : settings.check = .ok ())
    (compiled : compile digests settings = .ok plan) :
    plan.resourceFingerprints ≠ [] ∧ (plan.resourceFingerprints.map Prod.fst).Nodup := by
  have valid := settings_checked checked
  unfold compile at compiled
  split at compiled
  · exact nomatch compiled
  · rcases bind_eq_ok compiled with ⟨_, _, compiled⟩
    rcases bind_eq_ok compiled with ⟨layouts, _, compiled⟩
    cases compiled
    refine ⟨?_, ?_⟩
    · rw [ne_eq, List.map_eq_nil_iff]
      exact valid.resources
    · rw [List.map_map]
      exact valid.refs

theorem Call.Accepted.resources (accepted : call.Accepted server) :
    call.plan.resourceFingerprints ≠ [] ∧
      (call.plan.resourceFingerprints.map Prod.fst).Nodup := by
  rcases accepted with ⟨settings, checked, compiled⟩
  exact compile_resources checked compiled

end Plans

/-- All rows of one fingerprint let a next call expect it. -/
theorem checkExpected_of_physical {database : Database} {fingerprint : String}
    (physical : ∀ row ∈ database.resources, row.physicalFingerprint = fingerprint) :
    checkExpected (some fingerprint) database = .ok () := by
  have same : database.resources.map MetadataRow.physicalFingerprint =
      List.replicate database.resources.length fingerprint := by
    rw [List.eq_replicate_iff]
    refine ⟨List.length_map _, ?_⟩
    intro value listed
    rcases List.mem_map.mp listed with ⟨row, inside, rfl⟩
    exact physical row inside
  unfold checkExpected currentFingerprint
  rw [same]
  by_cases absent : database.catalog.find "__meridian_resources" = none
  · simp [absent, bind, Except.bind]
  · cases count : database.resources.length with
    | zero => simp [absent, bind, Except.bind]
    | succ number =>
        rw [List.replicate_dedup (Nat.succ_ne_zero number)]
        simp [absent, bind, Except.bind]

/-! ## One call -/

section Calls

variable {server : Server} {call : Call} {earlier : List Call} {evidence : MigrationEvidence}
  {next : Database}

theorem reached_ok
    (ran : call.apply server (reached server earlier) = .ok (evidence, next)) :
    reached server (call :: earlier) = next := by
  rw [reached, ran]

theorem reached_error {error : String}
    (failed : call.apply server (reached server earlier) = .error error) :
    reached server (call :: earlier) = reached server earlier ∧
      records server (call :: earlier) = records server earlier := by
  constructor
  · rw [reached, failed]
  · rw [records, failed]

/-- What a call that returns evidence leaves. -/
theorem apply_metadata (ran : call.apply server (reached server earlier) = .ok (evidence, next)) :
    (recorded call.plan (reached server earlier) = true ∧ next = reached server earlier ∧
      records server (call :: earlier) = records server earlier) ∨
    (recorded call.plan (reached server earlier) = false ∧
      ∃ rows, plannedRows call.settings call.plan = .ok rows ∧
        next.resources = rows.foldl upserted (reached server earlier).resources ∧
        records server (call :: earlier) =
          ⟨call.plan.physicalFingerprint, rows⟩ :: records server earlier) := by
  rcases apply_cases ran with ⟨_, _, _, ⟨known, unapplied, same⟩ | ⟨unknown, applied, migrated,
    ranAll, recordedOk⟩⟩
  · refine .inl ⟨known, same, ?_⟩
    rw [records, ran]
    cases plannedRows call.settings call.plan with
    | error error => rfl
    | ok rows => simp [unapplied]
  · rcases recordPlan_cases recordedOk with ⟨rows, planned, _, _, rfl⟩
    refine .inr ⟨unknown, rows, planned, ?_, ?_⟩
    · rw [(runStatements_metadata ranAll).1]
    · rw [records, ran, planned]
      simp [applied]

end Calls

/-! ## Runs -/

/-- What holds after any calls: one row for each resource, as it was recorded
last. -/
structure LedgerInvariant (server : Server) (calls : List Call) : Prop where
  distinct : ((reached server calls).resources.map MetadataRow.ref).Nodup
  rows : ∀ ref, rowOf (reached server calls).resources ref = lastRow (records server calls) ref
  known : records server calls = [] → (reached server calls).migrations = []

theorem ledger_invariant {server : Server} {calls : List Call}
    (accepted : ∀ call ∈ calls, call.Accepted server) : LedgerInvariant server calls := by
  induction calls with
  | nil => exact ⟨List.nodup_nil, fun _ => rfl, fun _ => rfl⟩
  | cons call earlier induction =>
      have before := induction fun other listed => accepted other (List.mem_cons_of_mem _ listed)
      cases ran : call.apply server (reached server earlier) with
      | error error =>
          rcases reached_error ran with ⟨state, history⟩
          refine ⟨?_, ?_, ?_⟩
          · rw [state]
            exact before.distinct
          · rw [state, history]
            exact before.rows
          · rw [state, history]
            exact before.known
      | ok result =>
          rcases result with ⟨evidence, next⟩
          have state := reached_ok ran
          rcases apply_metadata ran with ⟨_, same, history⟩ | ⟨_, rows, planned, resources, history⟩
          · rw [same] at state
            refine ⟨?_, ?_, ?_⟩
            · rw [state]
              exact before.distinct
            · rw [state, history]
              exact before.rows
            · rw [state, history]
              exact before.known
          · have distinct : (rows.map MetadataRow.ref).Nodup := by
              rw [plannedRows_refs planned]
              exact (accepted call List.mem_cons_self).resources.2
            refine ⟨?_, ?_, ?_⟩
            · rw [state, resources]
              exact refs_foldl before.distinct
            · intro ref
              rw [state, resources, history, rowOf_foldl distinct, before.rows, lastRow,
                lastRow, List.findSome?_cons]
              cases rowOf rows ref <;> rfl
            · rw [history]
              exact nofun

def CoherentCall (server : Server) (call : Call) (earlier : List Call) : Prop :=
  Coherent call.settings call.plan (reached server (call :: earlier))

/-- As long as every call is followed by coherent metadata, all rows carry the
fingerprint of the plan recorded last. -/
theorem rows_of_last {server : Server} {calls : List Call}
    (coherent : EveryCall server (CoherentCall server) calls) :
    ∀ row ∈ (reached server calls).resources, ∀ last ∈ (records server calls).head?,
      row.physicalFingerprint = last.physicalFingerprint := by
  induction calls with
  | nil => exact nofun
  | cons call earlier induction =>
      have before := induction coherent.2
      cases ran : call.apply server (reached server earlier) with
      | error error =>
          rcases reached_error ran with ⟨state, history⟩
          rw [state, history]
          exact before
      | ok result =>
          rcases result with ⟨evidence, next⟩
          rcases apply_metadata ran with ⟨_, same, history⟩ | ⟨_, rows, planned, _, history⟩
          · rw [reached_ok ran, same, history]
            exact before
          · intro row listed last first
            rw [history] at first
            cases first
            exact (coherent.1 evidence next ran).physical row listed

section Steps

variable {server : Server} {call : Call} {earlier : List Call}
  (accepted : call.Accepted server) (ledger : LedgerInvariant server earlier)

include accepted ledger

/-- A plan that was recorded before. -/
theorem coherent_iff_known (known : recorded call.plan (reached server earlier) = true)
    (last : ∀ row ∈ (reached server earlier).resources,
      ∀ last ∈ (records server earlier).head?,
        row.physicalFingerprint = last.physicalFingerprint) :
    Coherent call.settings call.plan (reached server earlier) ↔ Keeps server call earlier := by
  rw [Keeps, if_pos known]
  constructor
  · intro coherent
    constructor
    · intro record first
      rcases List.exists_mem_of_ne_nil _ accepted.resources.1 with ⟨resource, listed⟩
      rcases coherent.planned resource listed with ⟨row, inside, _⟩
      rw [← last row inside record first]
      exact coherent.physical row inside
    · intro resource listed
      rcases coherent.planned resource listed with ⟨row, inside, planned⟩
      refine ⟨row, ?_, planned⟩
      rw [← ledger.rows, ← (plannedRow_ref planned).1]
      exact (mem_iff_rowOf ledger.distinct).mp inside
  · rintro ⟨fingerprint, planned⟩
    have physical : ∀ row ∈ (reached server earlier).resources,
        row.physicalFingerprint = call.plan.physicalFingerprint := by
      intro row inside
      cases history : records server earlier with
      | nil =>
          have empty := ledger.known history
          simp [recorded, empty] at known
      | cons first rest =>
          have held : first ∈ (records server earlier).head? := by simp [history]
          exact (last row inside first held).trans (fingerprint first held)
    refine ⟨physical, ?_, checkExpected_of_physical physical⟩
    intro resource listed
    rcases planned resource listed with ⟨row, found, planned⟩
    refine ⟨row, ?_, planned⟩
    rw [mem_iff_rowOf ledger.distinct, (plannedRow_ref planned).1, ledger.rows, found]

/-- A new plan. -/
theorem coherent_iff_new (unknown : recorded call.plan (reached server earlier) = false)
    {rows : List MetadataRow} {next : Database}
    (planned : plannedRows call.settings call.plan = .ok rows)
    (resources : next.resources = rows.foldl upserted (reached server earlier).resources) :
    Coherent call.settings call.plan next ↔ Keeps server call earlier := by
  have refs := plannedRows_refs planned
  have distinct : (rows.map MetadataRow.ref).Nodup := by
    rw [refs]
    exact accepted.resources.2
  have nextDistinct : (next.resources.map MetadataRow.ref).Nodup := by
    rw [resources]
    exact refs_foldl ledger.distinct
  have found : ∀ ref, rowOf next.resources ref =
      (rowOf rows ref).or (rowOf (reached server earlier).resources ref) := by
    intro ref
    rw [resources, rowOf_foldl distinct]
  rw [Keeps, if_neg (by simp [unknown])]
  constructor
  · intro coherent row inside outside
    apply coherent.physical row
    rw [mem_iff_rowOf nextDistinct, found, rowOf_eq_none.mpr (refs ▸ outside), Option.none_or]
    exact (mem_iff_rowOf ledger.distinct).mp inside
  · intro kept
    have physical : ∀ row ∈ next.resources,
        row.physicalFingerprint = call.plan.physicalFingerprint := by
      intro row inside
      rw [mem_iff_rowOf nextDistinct, found] at inside
      cases new : rowOf rows row.ref with
      | some other =>
          rw [new, Option.some_or] at inside
          cases inside
          exact plannedRows_physical planned row (List.mem_of_find?_eq_some new)
      | none =>
          rw [new, Option.none_or] at inside
          exact kept row ((mem_iff_rowOf ledger.distinct).mpr inside)
            (refs ▸ rowOf_eq_none.mp new)
    refine ⟨physical, ?_, checkExpected_of_physical physical⟩
    intro resource listed
    rcases plannedRows_mem planned resource listed with ⟨row, inside, single⟩
    refine ⟨row, ?_, single⟩
    rw [mem_iff_rowOf nextDistinct, found, (mem_iff_rowOf distinct).mp inside, Option.some_or]

end Steps

/-- Every call of a run is followed by coherent metadata if and only if every
one keeps them so. -/
theorem ledger_coherent_iff {server : Server} {calls : List Call}
    (accepted : ∀ call ∈ calls, call.Accepted server) :
    EveryCall server (CoherentCall server) calls ↔ EveryCall server (Keeps server) calls := by
  induction calls with
  | nil => exact Iff.rfl
  | cons call earlier induction =>
      have others := fun other listed => accepted other (List.mem_cons_of_mem _ listed)
      have ledger := ledger_invariant others
      have here := accepted call List.mem_cons_self
      rw [EveryCall, EveryCall, ← induction others]
      apply and_congr_left
      intro coherent
      have last := rows_of_last coherent
      have each : ∀ evidence next,
          call.apply server (reached server earlier) = .ok (evidence, next) →
          (CoherentCall server call earlier ↔ Keeps server call earlier) := by
        intro evidence next ran
        rw [CoherentCall, reached_ok ran]
        rcases apply_metadata ran with ⟨known, rfl, _⟩ | ⟨unknown, rows, planned, resources, _⟩
        · exact coherent_iff_known here ledger known last
        · exact coherent_iff_new here ledger unknown planned resources
      constructor
      · intro kept evidence next ran
        exact (each evidence next ran).mp (kept evidence next ran)
      · intro kept evidence next ran
        exact (each evidence next ran).mpr (kept evidence next ran)

/-! ## Examples -/

/-- A second collection of the work queue's shape. -/
def jobsLayout : ResourceLayout :=
  { workLayout with ref := ⟨"structured", "example", "jobs"⟩, table := ⟨"jobs", by decide⟩ }

def jobsSettings : PostgreSQLSettings := { workSettings with resources := [jobsLayout, workLayout] }

/-- Digests that tell the sample plans apart. -/
def workDigests : Digests where
  physical := fun statements => toString statements.length
  plan := fun physical resources => "".intercalate (physical :: resources.map PlannedResource.ref)
  registry := id

def workServer : Server := ⟨workDigests, fun _ _ => false⟩

def planOf (settings : PostgreSQLSettings) : MigrationPlan :=
  match compile workDigests settings with
  | .ok plan => plan
  | .error _ => ⟨[], "", "", []⟩

def workCall : Call := ⟨workSettings, planOf workSettings, none⟩

def jobsCall : Call := ⟨jobsSettings, planOf jobsSettings, none⟩

def answers (call : Call) (earlier : List Call) : Bool :=
  (call.apply workServer (reached workServer earlier)).toOption.isSome

theorem answers_ok {call : Call} {earlier : List Call} (answered : answers call earlier = true) :
    ∃ evidence next, call.apply workServer (reached workServer earlier) = .ok (evidence, next) := by
  unfold answers at answered
  cases ran : call.apply workServer (reached workServer earlier) with
  | error error =>
      rw [ran] at answered
      exact nomatch answered
  | ok result => exact ⟨result.1, result.2, rfl⟩

theorem workCall_accepted : workCall.Accepted workServer :=
  ⟨workSettings, by decide, rfl⟩

theorem jobsCall_accepted : jobsCall.Accepted workServer :=
  ⟨jobsSettings, by decide, rfl⟩

theorem calls_accepted : ∀ call ∈ [workCall, jobsCall, workCall], call.Accepted workServer := by
  intro call listed
  simp only [List.mem_cons, List.not_mem_nil, or_false] at listed
  rcases listed with rfl | rfl | rfl
  · exact workCall_accepted
  · exact jobsCall_accepted
  · exact workCall_accepted

/-- A plan that is applied again after another one returns its own
fingerprint, and the rows carry the other's. -/
theorem reapplied_plan_is_stale :
    (∀ call ∈ [workCall, jobsCall, workCall], call.Accepted workServer) ∧
    ∃ evidence next,
      workCall.apply workServer (reached workServer [jobsCall, workCall]) =
        .ok (evidence, next) ∧
      evidence.physicalFingerprint = workCall.plan.physicalFingerprint ∧
      ∃ row ∈ next.resources, row.physicalFingerprint ≠ evidence.physicalFingerprint := by
  have answered : answers workCall [jobsCall, workCall] = true := by decide
  rcases answers_ok answered with ⟨evidence, next, ran⟩
  have fingerprint := (apply_cases ran).2.1
  have stale : ∃ row ∈ (reached workServer [workCall, jobsCall, workCall]).resources,
      row.physicalFingerprint ≠ workCall.plan.physicalFingerprint := by decide
  rw [reached_ok ran, ← fingerprint] at stale
  exact ⟨calls_accepted, evidence, next, ran, fingerprint, stale⟩

/-- A plan of more resources after another one. -/
theorem ledger_coherent_jobs :
    EveryCall workServer (CoherentCall workServer) [jobsCall, workCall] := by
  have accepted : ∀ call ∈ [jobsCall, workCall], call.Accepted workServer :=
    fun call listed => calls_accepted call (List.mem_cons_of_mem _ listed)
  rw [ledger_coherent_iff accepted]
  refine ⟨?_, ?_, trivial⟩
  · intro _ _ _
    have unknown : ¬ recorded jobsCall.plan (reached workServer [workCall]) = true := by decide
    rw [Keeps, if_neg unknown]
    decide
  · intro _ _ _
    have unknown : ¬ recorded workCall.plan (reached workServer []) = true := by decide
    rw [Keeps, if_neg unknown]
    decide

end MeridianPostgreSQL.Migration
