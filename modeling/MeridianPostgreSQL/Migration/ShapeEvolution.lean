import MeridianPostgreSQL.Migration.LedgerCoherence
import MeridianPostgreSQL.Migration.Shapes

/-! # Evolving a schema

Which changes of the settings reach the tables when the plan of new settings
is applied over that of old ones. -/

namespace MeridianPostgreSQL.Migration

open Settings Catalogs Schema

/-- Rows that were written since. -/
def Database.withRows (database : Database) (populated : List String) : Database :=
  { database with catalog := { database.catalog with populated := populated } }

/-- A table has the columns, types and nullability that the probe expects. -/
def Exact (server : Server) (settings : PostgreSQLSettings) (database : Database)
    (layout : ResourceLayout) : Prop :=
  if layout.isRegistry then
    ∃ fingerprint, verifySchemaRepository server settings.physicalSchema.text database =
      .ok fingerprint
  else ∃ expected, expectedColumns settings layout = .ok expected ∧
    (observedColumns database layout).Perm expected

/-- Whether idempotent statements can lead from the columns of a table, if it
exists, to those that are expected. -/
def Reachable (old new : PostgreSQLSettings) (recorded : Prop) (layout : ResourceLayout) : Prop :=
  ∀ expected, expectedColumns new layout = .ok expected →
    (∀ column ∈ expected, Fits column.name) ∧
    (∀ before ∈ old.resources, before.isRegistry = false → before.table = layout.table →
      ∀ present, expectedColumns old before = .ok present →
        present.map Column.truncated ⊆ expected) ∧
    (recorded → ∃ before ∈ old.resources, before.isRegistry = false ∧
      before.table = layout.table ∧ ∃ present, expectedColumns old before = .ok present ∧
        expected ⊆ present.map Column.truncated)

section Evolution

variable {server : Server} {settings old new : PostgreSQLSettings} {plan : MigrationPlan}
  {layout : ResourceLayout} {database next : Database}

theorem sound_withRows {populated : List String} (sound : database.catalog.Sound) :
    (database.withRows populated).catalog.Sound :=
  ⟨sound.apart, sound.fit, sound.columns, sound.indexed⟩

theorem table_free (checked : settings.Checked) (listed : layout ∈ settings.resources)
    (data : layout.isRegistry = false) : layout.table.text ∉ ResourceLayout.reservedTables := by
  rcases checked_of_check (checked.layouts layout listed) with ⟨registry, _⟩ | ⟨_, valid⟩
  · rw [data] at registry
    exact nomatch registry
  · exact valid.table

/-- What a compiled plan leaves of the columns of each table. -/
theorem plan_grown (checked : settings.Checked) (data : layout.isRegistry = false)
    (compiled : compile server.digests settings = .ok plan) (sound : database.catalog.Sound)
    (ran : runStatements server database plan.statements = .ok next)
    (listed : layout ∈ settings.resources) :
    ∃ columns held, Grown settings layout database.catalog next.catalog columns held := by
  have free := table_free checked listed data
  rcases compile_statements compiled with ⟨layouts, each, statements⟩
  rw [statements] at ran
  rcases runStatements_append ran with ⟨middle, adapter, resources⟩
  have untouched : middle.catalog.columnsOf layout.table.text =
      database.catalog.columnsOf layout.table.text := by
    apply runStatements_columnsOf _ adapter
    intro statement inside alters
    rcases List.mem_map.mp inside with ⟨ddl, member, rfl⟩
    exact free (adapterStatements_altered member alters)
  rcases layouts_grown each checked.tables (runStatements_sound sound adapter) resources listed
    data free with ⟨columns, held, grown⟩
  exact ⟨columns, held, grown.defined, untouched ▸ grown.source, grown.distinct, grown.fit,
    grown.result⟩

/-- A table of no layout keeps its columns. -/
theorem plan_columnsOf {table : String} (compiled : compile server.digests settings = .ok plan)
    (ran : runStatements server database plan.statements = .ok next)
    (others : ∀ layout ∈ settings.resources, layout.table.text ≠ table)
    (free : table ∉ ResourceLayout.reservedTables) :
    next.catalog.columnsOf table = database.catalog.columnsOf table := by
  rcases compile_statements compiled with ⟨layouts, each, statements⟩
  apply runStatements_columnsOf _ ran
  intro statement inside alters
  rw [statements, List.mem_append] at inside
  rcases inside with adapter | resources
  · rcases List.mem_map.mp adapter with ⟨ddl, member, rfl⟩
    exact free (adapterStatements_altered member alters)
  · exact layouts_columnsOf each others free statement resources alters

theorem compile_columns (compiled : compile server.digests settings = .ok plan)
    (listed : layout ∈ settings.resources) (data : layout.isRegistry = false) :
    ∃ columns, columnDefinitions settings layout = .ok columns := by
  rcases compile_statements compiled with ⟨layouts, each, _⟩
  rcases List.forall₂_iff_get.mp each with ⟨length, made⟩
  rcases List.getElem_of_mem listed with ⟨index, bound, rfl⟩
  rcases layoutStatements_resource data (made index bound (length ▸ bound)) with
    ⟨columns, defined, _⟩
  exact ⟨columns, defined⟩

/-- A call from the empty schema runs its plan. -/
theorem applied_first {expected : Option String} {evidence : MigrationEvidence}
    (applied : apply server settings plan expected Database.empty = .ok (evidence, next)) :
    ∃ migrated, runStatements server .empty plan.statements = .ok migrated ∧
      next.catalog = migrated.catalog ∧ next.migrations = [plan.planFingerprint] ∧
      migrated.catalog.columnsOf "__meridian_migrations" ≠ none := by
  rcases apply_cases applied with ⟨_, _, _, ⟨known, _⟩ | ⟨_, _, migrated, ran, recordedOk⟩⟩
  · exact nomatch known
  · rcases recordPlan_cases recordedOk with ⟨rows, _, _, present, rfl⟩
    refine ⟨migrated, ran, rfl, ?_, present⟩
    rw [(runStatements_metadata ran).2]
    rfl

/-- A first plan leaves each of its tables with its columns, as far as their
names fit. -/
theorem first_columns (checked : settings.Checked)
    (compiled : compile server.digests settings = .ok plan)
    (ran : runStatements server .empty plan.statements = .ok next)
    (listed : layout ∈ settings.resources) (data : layout.isRegistry = false) :
    ∃ present, expectedColumns settings layout = .ok present ∧
      next.catalog.columnsOf layout.table.text = some (present.map Column.truncated) := by
  rcases plan_grown checked data compiled Catalog.sound_empty ran listed with
    ⟨columns, held, grown⟩
  refine ⟨columns.map Prod.fst, ?_, ?_⟩
  · rw [expectedColumns_eq, grown.defined]
    rfl
  · rcases grown.source with before | ⟨_, same⟩
    · exact nomatch before
    · rw [grown.result, same, Catalog.foldl_extended_self]
      intro column inside
      exact List.mem_map_of_mem inside

/-! ## What old settings have left -/

theorem table_unique (tables : (settings.resources.map ResourceLayout.table).Nodup)
    {left right : ResourceLayout} (here : left ∈ settings.resources)
    (there : right ∈ settings.resources) (same : left.table = right.table) : left = right :=
  List.inj_on_of_nodup_map tables here there same

/-- A table that the adapter does not own has the columns of its layout, or
does not exist. -/
theorem old_columns (checked : settings.Checked)
    (compiled : compile server.digests settings = .ok plan)
    (ran : runStatements server .empty plan.statements = .ok next) {table : Identifier}
    (free : table.text ∉ ResourceLayout.reservedTables) :
    (∃ before ∈ settings.resources, before.isRegistry = false ∧ before.table = table ∧
      ∃ present, expectedColumns settings before = .ok present ∧
        next.catalog.columnsOf table.text = some (present.map Column.truncated)) ∨
    ((∀ before ∈ settings.resources, before.table ≠ table) ∧
      next.catalog.columnsOf table.text = none) := by
  by_cases known : ∃ before ∈ settings.resources, before.table = table
  · left
    rcases known with ⟨before, listed, same⟩
    have data : before.isRegistry = false := by
      rcases checked_of_check (checked.layouts before listed) with ⟨_, registry, _⟩ | ⟨data, _⟩
      · exact absurd (by rw [← same, registry]; decide) free
      · exact data
    refine ⟨before, listed, data, same, ?_⟩
    rw [← same]
    exact first_columns checked compiled ran listed data
  · right
    have others : ∀ before ∈ settings.resources, before.table ≠ table :=
      fun before listed same => known ⟨before, listed, same⟩
    refine ⟨others, ?_⟩
    rw [plan_columnsOf compiled ran (fun before listed same =>
      others before listed (Identifier.ext same)) free]
    rfl

section Held

variable (checked : old.Checked) (compiled : compile server.digests old = .ok plan)
  (ran : runStatements server .empty plan.statements = .ok next)
  (free : layout.table.text ∉ ResourceLayout.reservedTables) {expected : List Column}

include checked compiled ran free

theorem held_subset_iff :
    (∀ before ∈ old.resources, before.isRegistry = false → before.table = layout.table →
      ∀ present, expectedColumns old before = .ok present →
        present.map Column.truncated ⊆ expected) ↔
    ∀ held, next.catalog.columnsOf layout.table.text = some held → held ⊆ expected := by
  rcases old_columns checked compiled ran free with
    ⟨before, listed, data, same, present, defined, held⟩ | ⟨others, absent⟩
  · rw [held]
    constructor
    · intro contained _ found
      cases found
      exact contained before listed data same present defined
    · intro contained other inside _ alike otherPresent otherDefined
      rw [table_unique checked.tables inside listed (alike.trans same.symm), defined]
        at otherDefined
      cases otherDefined
      exact contained _ rfl
  · rw [absent]
    constructor
    · intro _ _ found
      exact nomatch found
    · intro _ before inside _ alike
      exact absurd alike (others before inside)

theorem held_superset_iff :
    (∃ before ∈ old.resources, before.isRegistry = false ∧ before.table = layout.table ∧
      ∃ present, expectedColumns old before = .ok present ∧
        expected ⊆ present.map Column.truncated) ↔
    ∃ held, next.catalog.columnsOf layout.table.text = some held ∧ expected ⊆ held := by
  rcases old_columns checked compiled ran free with
    ⟨before, listed, data, same, present, defined, held⟩ | ⟨others, absent⟩
  · constructor
    · rintro ⟨other, inside, _, alike, otherPresent, otherDefined, contained⟩
      rw [table_unique checked.tables inside listed (alike.trans same.symm), defined]
        at otherDefined
      cases otherDefined
      exact ⟨_, held, contained⟩
    · rintro ⟨_, found, contained⟩
      rw [held] at found
      cases found
      exact ⟨before, listed, data, same, present, defined, contained⟩
  · constructor
    · rintro ⟨before, inside, _, alike, _⟩
      exact absurd alike (others before inside)
    · rintro ⟨_, found, _⟩
      rw [absent] at found
      exact nomatch found

end Held

/-! ## Exact shapes -/

theorem perm_iff_subset {left right : List Column} (leftUnique : (left.map Column.name).Nodup)
    (rightUnique : (right.map Column.name).Nodup) :
    left.Perm right ↔ left ⊆ right ∧ right ⊆ left := by
  rw [List.perm_ext_iff_of_nodup leftUnique.of_map rightUnique.of_map]
  constructor
  · intro same
    exact ⟨fun _ => (same _).mp, fun _ => (same _).mpr⟩
  · rintro ⟨there, back⟩ column
    exact ⟨fun inside => there inside, fun inside => back inside⟩

/-- A plan that runs brings a table to its shape if and only if it had no
other columns. -/
theorem perm_of_ran (checked : new.Checked) (compiled : compile server.digests new = .ok plan)
    (sound : database.catalog.Sound)
    (ran : runStatements server database plan.statements = .ok next)
    (listed : layout ∈ new.resources) (data : layout.isRegistry = false)
    {expected : List Column} (defined : expectedColumns new layout = .ok expected) :
    (observedColumns next layout).Perm expected ↔
      (∀ column ∈ expected, Fits column.name) ∧
        ∀ held, database.catalog.columnsOf layout.table.text = some held → held ⊆ expected := by
  rcases plan_grown checked data compiled sound ran listed with ⟨columns, held, grown⟩
  have same : columns.map Prod.fst = expected := by
    rw [expectedColumns_eq, grown.defined] at defined
    exact Except.ok.inj defined
  have distinct : (expected.map Column.name).Nodup := by
    rw [← same]
    exact columnDefinitions_nodup checked.scopeKeys (checked.layouts layout listed) grown.defined
  rw [observedColumns, grown.result, same, Option.getD_some,
    Catalog.foldl_extended_perm_iff grown.distinct grown.fit distinct]
  rcases grown.source with before | ⟨absent, whole⟩
  · rw [before]
    constructor
    · rintro ⟨contained, fits⟩
      exact ⟨fits, fun _ found => Option.some.inj found ▸ contained⟩
    · rintro ⟨fits, contained⟩
      exact ⟨contained held rfl, fits⟩
  · rw [absent]
    constructor
    · rintro ⟨_, fits⟩
      exact ⟨fits, nofun⟩
    · rintro ⟨fits, _⟩
      refine ⟨?_, fits⟩
      rw [whole, same]
      intro column inside
      rcases List.mem_map.mp inside with ⟨original, member, rfl⟩
      rw [Column.truncated, truncated_eq (fits original member)]
      exact member

/-- A table that is left as it was has its shape if and only if it had it. -/
theorem perm_of_kept (checked : new.Checked) (sound : database.catalog.Sound)
    (listed : layout ∈ new.resources) {columns : List (Column × Bool)}
    (defined : columnDefinitions new layout = .ok columns) :
    (observedColumns database layout).Perm (columns.map Prod.fst) ↔
      (∀ column ∈ columns.map Prod.fst, Fits column.name) ∧
        (∀ held, database.catalog.columnsOf layout.table.text = some held →
          held ⊆ columns.map Prod.fst) ∧
        ∃ held, database.catalog.columnsOf layout.table.text = some held ∧
          columns.map Prod.fst ⊆ held := by
  have distinct := columnDefinitions_nodup checked.scopeKeys (checked.layouts layout listed) defined
  unfold observedColumns
  cases found : database.catalog.columnsOf layout.table.text with
  | none =>
      constructor
      · intro same
        have empty : columns = [] := List.map_eq_nil_iff.mp same.symm.eq_nil
        exact absurd empty (columnDefinitions_ne_nil defined)
      · rintro ⟨_, _, _, impossible, _⟩
        exact nomatch impossible
  | some held =>
      rcases sound.columnsOf found with ⟨unique, fit⟩
      rw [Option.getD_some, perm_iff_subset unique distinct]
      constructor
      · rintro ⟨contained, back⟩
        exact ⟨fun column inside => fit column (back inside),
          fun _ other => Option.some.inj other ▸ contained, held, rfl, back⟩
      · rintro ⟨_, contained, _, other, back⟩
        cases other
        exact ⟨contained held rfl, back⟩

end Evolution

/-! ## Two plans -/

section Plans

variable {server : Server} {old new : PostgreSQLSettings} {oldPlan newPlan : MigrationPlan}
  {applied next : Database} {populated : List String} {expected : Option String}
  {before evidence : MigrationEvidence} {oldExpected : Option String}

theorem exact_iff_reachable (oldChecked : old.Checked) (newChecked : new.Checked)
    (oldCompiled : compile server.digests old = .ok oldPlan)
    (newCompiled : compile server.digests new = .ok newPlan)
    (first : apply server old oldPlan oldExpected Database.empty = .ok (before, applied))
    (second : apply server new newPlan expected (applied.withRows populated) =
      .ok (evidence, next)) {layout : ResourceLayout} (listed : layout ∈ new.resources)
    (data : layout.isRegistry = false) :
    Exact server new next layout ↔
      Reachable old new (newPlan.planFingerprint = oldPlan.planFingerprint) layout := by
  have free := table_free newChecked listed data
  rcases applied_first first with ⟨migrated, ran, catalog, ledger, present⟩
  have held : (applied.withRows populated).catalog.columnsOf layout.table.text =
      migrated.catalog.columnsOf layout.table.text := by
    rw [← catalog]
    rfl
  have sound : (applied.withRows populated).catalog.Sound := by
    apply sound_withRows
    rw [catalog]
    exact runStatements_sound Catalog.sound_empty ran
  rcases compile_columns newCompiled listed data with ⟨columns, defined⟩
  have expects : expectedColumns new layout = .ok (columns.map Prod.fst) := by
    rw [expectedColumns_eq, defined]
    rfl
  have reachable : Reachable old new (newPlan.planFingerprint = oldPlan.planFingerprint) layout ↔
      (∀ column ∈ columns.map Prod.fst, Fits column.name) ∧
      (∀ held, migrated.catalog.columnsOf layout.table.text = some held →
        held ⊆ columns.map Prod.fst) ∧
      (newPlan.planFingerprint = oldPlan.planFingerprint →
        ∃ held, migrated.catalog.columnsOf layout.table.text = some held ∧
          columns.map Prod.fst ⊆ held) := by
    rw [← held_subset_iff oldChecked oldCompiled ran free,
      ← held_superset_iff oldChecked oldCompiled ran free, Reachable, expects]
    simp only [Except.ok.injEq, forall_eq']
  have exact_iff : Exact server new next layout ↔
      (observedColumns next layout).Perm (columns.map Prod.fst) := by
    simp [Exact, data, expects]
  rw [reachable, exact_iff]
  have known : recorded newPlan (applied.withRows populated) =
      decide (newPlan.planFingerprint = oldPlan.planFingerprint) := by
    have found : (applied.withRows populated).catalog.find "__meridian_migrations" ≠ none := by
      intro absent
      apply present
      rw [← catalog]
      unfold Catalog.columnsOf
      rw [show applied.catalog.find "__meridian_migrations" = none from absent]
    rw [recorded, Option.isSome_iff_ne_none.mpr found, Bool.true_and]
    simp [Database.withRows, ledger]
  rcases apply_cases second with ⟨_, _, _, ⟨repeated, _, rfl⟩ | ⟨fresh, _, ended, runs, records⟩⟩
  · rw [known, decide_eq_true_iff] at repeated
    rw [perm_of_kept newChecked sound listed defined, held]
    simp only [repeated, true_implies]
  · rw [known, decide_eq_false_iff_not] at fresh
    have same : observedColumns next layout = observedColumns ended layout := by
      rcases recordPlan_cases records with ⟨rows, _, _, _, rfl⟩
      rfl
    rw [same, perm_of_ran newChecked newCompiled sound runs listed data expects, held]
    simp only [fresh, false_implies, and_true]

theorem registry_exact {layout : ResourceLayout} (listed : layout ∈ new.resources)
    (registry : layout.isRegistry = true) (verified : verifyRegistry server new next = .ok ()) :
    Exact server new next layout := by
  rw [Exact, if_pos registry]
  have needed : new.resources.any ResourceLayout.isRegistry = true :=
    List.any_eq_true.mpr ⟨layout, listed, registry⟩
  rw [verifyRegistry, if_pos needed] at verified
  cases stored : verifySchemaRepository server new.physicalSchema.text next with
  | error error =>
      rw [stored] at verified
      exact nomatch verified
  | ok fingerprint => exact ⟨fingerprint, rfl⟩

end Plans

/-- An accepted call leaves every table in its planned shape if and only if
idempotent statements lead there from the old one. A call that raises leaves
nothing. -/
theorem migration_shape_iff {server : Server} {old new : PostgreSQLSettings}
    {oldPlan newPlan : MigrationPlan} {applied next : Database} {populated : List String}
    {before evidence : MigrationEvidence} {oldExpected expected : Option String}
    (oldAccepted : old.check = .ok ()) (newAccepted : new.check = .ok ())
    (oldCompiled : compile server.digests old = .ok oldPlan)
    (newCompiled : compile server.digests new = .ok newPlan)
    (first : apply server old oldPlan oldExpected Database.empty = .ok (before, applied))
    (second : apply server new newPlan expected (applied.withRows populated) =
      .ok (evidence, next)) :
    (∀ layout ∈ new.resources, Exact server new next layout) ↔
      ∀ layout ∈ new.resources, layout.isRegistry = false →
        Reachable old new (newPlan.planFingerprint = oldPlan.planFingerprint) layout := by
  have oldChecked := settings_checked oldAccepted
  have newChecked := settings_checked newAccepted
  constructor
  · intro shaped layout listed data
    exact (exact_iff_reachable oldChecked newChecked oldCompiled newCompiled first second listed
      data).mp (shaped layout listed)
  · intro reachable layout listed
    cases kind : layout.isRegistry with
    | true => exact registry_exact listed kind (apply_cases second).2.2.1
    | false =>
        exact (exact_iff_reachable oldChecked newChecked oldCompiled newCompiled first second
          listed kind).mpr (reachable layout listed kind)

/-! ## Examples -/

def columnKinds : PlanStatement → List String
  | .ddl (.addColumn _ column _) => [column.name, column.kind]
  | _ => []

/-- Digests that see the columns of a plan. -/
def kindDigests : Digests :=
  { workDigests with physical := fun statements => "".intercalate (statements.flatMap columnKinds) }

def kindServer : Server := ⟨kindDigests, fun _ _ => false⟩

/-- The work queue with one more field. -/
def withField (field : FieldLayout) : PostgreSQLSettings :=
  { workSettings with resources := [{ workLayout with
      fields := workLayout.fields.filter (fun old => old.name ≠ field.name) ++ [field] }] }

/-- A priority that is a text from now on. -/
def retypedSettings : PostgreSQLSettings :=
  withField ⟨"priority", ⟨"priority", isIdentifier_priority⟩, .string, false, true, .one, none, none⟩

def notedSettings : PostgreSQLSettings :=
  withField ⟨"note", ⟨"note", by decide⟩, .string, true, true, .one, none, none⟩

def kindPlan (settings : PostgreSQLSettings) : MigrationPlan :=
  match compile kindDigests settings with
  | .ok plan => plan
  | .error _ => ⟨[], "", "", []⟩

/-- The work queue's schema with rows in its table. -/
def workDatabase : Database :=
  match apply kindServer workSettings (kindPlan workSettings) none .empty with
  | .ok (_, applied) => applied.withRows ["work_items"]
  | .error _ => .empty

def kindResult (settings : PostgreSQLSettings) : Except String (MigrationEvidence × Database) :=
  apply kindServer settings (kindPlan settings) none workDatabase

theorem kindPlan_compiled {settings : PostgreSQLSettings}
    (compiles : (compile kindDigests settings).toOption.isSome = true) :
    compile kindServer.digests settings = .ok (kindPlan settings) := by
  unfold kindPlan
  cases compiled : compile kindDigests settings with
  | error error =>
      rw [compiled] at compiles
      exact nomatch compiles
  | ok plan => exact compiled

def expectedOf (settings : PostgreSQLSettings) : List Column :=
  (settings.resources.map (expectedColumns settings)).head?.elim []
    fun expected => expected.toOption.getD []

/-- The first call of the samples. -/
theorem workDatabase_applied : ∃ before applied,
    apply kindServer workSettings (kindPlan workSettings) none .empty = .ok (before, applied) ∧
      workDatabase = applied.withRows ["work_items"] := by
  have answered :
      (apply kindServer workSettings (kindPlan workSettings) none .empty).toOption.isSome = true := by
    decide
  unfold workDatabase
  cases ran : apply kindServer workSettings (kindPlan workSettings) none .empty with
  | error error =>
      rw [ran] at answered
      exact nomatch answered
  | ok result => exact ⟨result.1, result.2, rfl, rfl⟩

/-- The columns that a sample's second call leaves in the table of the queue. -/
def kindColumns (settings : PostgreSQLSettings) : Option (List Column) :=
  (kindResult settings).toOption.map fun result => observedColumns result.2 workLayout

theorem kindColumns_some {settings : PostgreSQLSettings} {columns : List Column}
    (left : kindColumns settings = some columns) :
    ∃ evidence next, kindResult settings = .ok (evidence, next) ∧
      observedColumns next workLayout = columns := by
  unfold kindColumns at left
  cases ran : kindResult settings with
  | error error =>
      rw [ran] at left
      exact nomatch left
  | ok result =>
      rw [ran] at left
      exact ⟨result.1, result.2, rfl, Option.some.inj left⟩

/-- A column that gets another type is skipped, and the plan is recorded. -/
theorem retyped_column_is_skipped :
    workSettings.check = .ok () ∧ retypedSettings.check = .ok () ∧
    compile kindServer.digests workSettings = .ok (kindPlan workSettings) ∧
    compile kindServer.digests retypedSettings = .ok (kindPlan retypedSettings) ∧
    ∃ before applied evidence next,
      apply kindServer workSettings (kindPlan workSettings) none .empty = .ok (before, applied) ∧
      apply kindServer retypedSettings (kindPlan retypedSettings) none
        (applied.withRows ["work_items"]) = .ok (evidence, next) ∧
      evidence.applied = true ∧
      ¬ ∀ layout ∈ retypedSettings.resources, Exact kindServer retypedSettings next layout := by
  rcases workDatabase_applied with ⟨before, applied, first, database⟩
  have held : ∃ columns, kindColumns retypedSettings = some columns ∧
      ⟨"priority", "text", true, false⟩ ∉ columns :=
    ⟨_, rfl, by decide⟩
  rcases held with ⟨columns, left, absent⟩
  rcases kindColumns_some left with ⟨evidence, next, second, observed⟩
  have fresh : recorded (kindPlan retypedSettings) workDatabase = false := by decide
  rw [kindResult, database] at second
  refine ⟨by decide, by decide, kindPlan_compiled (by decide), kindPlan_compiled (by decide),
    before, applied, evidence, next, first, second, ?_, ?_⟩
  · rcases apply_cases second with ⟨_, _, _, ⟨known, _⟩ | ⟨_, done, _⟩⟩
    · rw [← database, fresh] at known
      exact nomatch known
    · exact done
  · intro shaped
    have listed : ∃ layout ∈ retypedSettings.resources, layout.isRegistry = false ∧
        layout.table = workLayout.table ∧
        ∃ expected, expectedColumns retypedSettings layout = .ok expected ∧
          ⟨"priority", "text", true, false⟩ ∈ expected :=
      ⟨_, List.mem_singleton_self _, rfl, rfl, _, rfl, by decide⟩
    rcases listed with ⟨layout, member, data, table, expected, defined, present⟩
    have shape := shaped layout member
    simp only [Exact, data, Bool.false_eq_true, if_false, defined, Except.ok.injEq,
      exists_eq_left'] at shape
    apply absent
    rw [← observed, observedColumns, ← table]
    exact shape.mem_iff.mpr present

/-- A nullable field is added to a table that has rows. -/
theorem migration_shape_noted : ∃ before applied evidence next,
    apply kindServer workSettings (kindPlan workSettings) none .empty = .ok (before, applied) ∧
    apply kindServer notedSettings (kindPlan notedSettings) none
      (applied.withRows ["work_items"]) = .ok (evidence, next) ∧
    ∀ layout ∈ notedSettings.resources, Exact kindServer notedSettings next layout := by
  rcases workDatabase_applied with ⟨before, applied, first, database⟩
  have held : ∃ columns, kindColumns notedSettings = some columns := ⟨_, rfl⟩
  rcases held with ⟨columns, left⟩
  rcases kindColumns_some left with ⟨evidence, next, second, observed⟩
  rw [kindResult, database] at second
  refine ⟨before, applied, evidence, next, first, second, ?_⟩
  rw [migration_shape_iff (by decide) (by decide) (kindPlan_compiled (by decide))
    (kindPlan_compiled (by decide)) first second]
  intro layout listed _ expected defined
  rw [List.mem_singleton.mp listed] at defined ⊢
  have same : expected = expectedOf notedSettings := by
    cases defined
    rfl
  refine ⟨?_, ?_, ?_⟩
  · rw [same]
    decide
  · intro earlier member _ _ present presentDefined
    rw [List.mem_singleton.mp member] at presentDefined
    cases presentDefined
    rw [same]
    decide
  · intro recorded
    exact absurd recorded (by decide)

end MeridianPostgreSQL.Migration
