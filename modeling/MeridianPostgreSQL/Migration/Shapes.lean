import MeridianPostgreSQL.Settings.CheckedLayouts
import MeridianPostgreSQL.Migration.Executor

/-! # Table shapes

What `ProbeService._verify_table_shape` expects of a table, and what running a
plan leaves of its columns. -/

namespace MeridianPostgreSQL.Migration

open Settings Catalogs Schema

/-! ## Expectations -/

/-- The columns that the probe expects of a resource table. -/
def expectedColumns (settings : PostgreSQLSettings) (layout : ResourceLayout) :
    Except String (List Column) := do
  let fields ← layout.fields.mapM fun field => do
    let kind ← sqlType field
    .ok (⟨field.column.text, kind, !field.nullable, false⟩ : Column)
  .ok ([⟨"__tenant", "text", true, false⟩] ++
    (settings.scopeKeys.map fun key => ⟨"__scope_" ++ key.text, "text", true, false⟩) ++ fields ++
    [⟨"__record_version", "bigint", true, false⟩,
      ⟨"__created_at", "timestamp with time zone", true, false⟩,
      ⟨"__updated_at", "timestamp with time zone", true, false⟩] ++
    if layout.relation.isSome then
      [⟨"__source_collection", "text", false, true⟩,
        ⟨"__source_record_id", "text", false, true⟩,
        ⟨"__target_collection", "text", false, true⟩,
        ⟨"__target_record_id", "text", false, true⟩]
    else [])

/-- The names of the indexes that the probe expects. -/
def expectedIndexes (layout : ResourceLayout) : List String :=
  (layout.table.text ++ "_pkey") ::
    ((layout.indexes.filter fun index => index.kind ≠ .relationEndpoint).map fun index =>
      layout.table.text ++ "_" ++ index.name.text) ++
    if layout.relation.isSome then
      [layout.table.text ++ "__source_endpoint", layout.table.text ++ "__target_endpoint"]
    else []

def observedColumns (database : Database) (layout : ResourceLayout) : List Column :=
  (database.catalog.columnsOf layout.table.text).getD []

/-- `_verify_table_shape`. Equal sorted lists are permutations of each other. -/
def verifyTableShape (server : Server) (settings : PostgreSQLSettings) (database : Database)
    (layout : ResourceLayout) : Except String Unit :=
  if layout.isRegistry then
    (verifySchemaRepository server settings.physicalSchema.text database).map fun _ => ()
  else do
    let expected ← expectedColumns settings layout
    let indexes := database.catalog.indexesOf layout.table.text
    if ¬ (observedColumns database layout).Perm expected then
      .error s!"physical column drift detected for {layout.ref.canonical}"
    else if ¬ (indexes ⊆ expectedIndexes layout ∧ expectedIndexes layout ⊆ indexes) then
      .error s!"physical index drift detected for {layout.ref.canonical}"
    else .ok ()

section Columns

variable {settings : PostgreSQLSettings} {layout : ResourceLayout}

/-- The probe expects what the compiler defines. -/
theorem expectedColumns_eq : expectedColumns settings layout =
    (columnDefinitions settings layout).map (List.map Prod.fst) := by
  have fields : (layout.fields.mapM fun field => do
      let kind ← sqlType field
      .ok (⟨field.column.text, kind, !field.nullable, false⟩ : Column)) =
      layout.fields.mapM columnDefinition := rfl
  unfold expectedColumns columnDefinitions
  rw [fields]
  cases layout.fields.mapM columnDefinition with
  | error error => rfl
  | ok fields =>
      simp [bind, Except.bind, Except.map, scopeDefinitions, PostgreSQLSettings.scopeColumns,
        requiredText, bookkeepingDefinitions, relationGeneratedColumns, Function.comp_def]

theorem columnDefinitions_ne_nil {columns : List (Column × Bool)}
    (defined : columnDefinitions settings layout = .ok columns) : columns ≠ [] := by
  rcases bind_eq_ok defined with ⟨fields, _, defined⟩
  cases defined
  simp [scopeDefinitions, PostgreSQLSettings.scopeColumns]

end Columns

theorem identifier_fits (identifier : Identifier) : Fits identifier.text := by
  have valid := identifier.valid
  unfold isIdentifier at valid
  unfold Fits
  cases characters : identifier.text.toList with
  | nil => simp
  | cons first rest =>
      rw [characters] at valid
      simp only [Bool.and_eq_true, decide_eq_true_eq] at valid
      rw [List.length_cons]
      omega

theorem identifier_truncated (identifier : Identifier) :
    truncated identifier.text = identifier.text := truncated_eq (identifier_fits identifier)

/-! ## Names of columns -/

section Names

variable {settings : PostgreSQLSettings} {layout : ResourceLayout}

theorem columnDefinition_name {field : FieldLayout} {column : Column}
    (defined : columnDefinition field = .ok column) : column.name = field.column.text := by
  rcases bind_eq_ok defined with ⟨kind, _, defined⟩
  cases defined
  rfl

theorem columnDefinition_names {fields : List FieldLayout} {columns : List Column}
    (defined : fields.mapM columnDefinition = .ok columns) :
    columns.map Column.name = fields.map fun field => field.column.text := by
  induction fields generalizing columns with
  | nil =>
      cases defined
      rfl
  | cons field rest induction =>
      rw [List.mapM_cons] at defined
      rcases bind_eq_ok defined with ⟨first, head, defined⟩
      rcases bind_eq_ok defined with ⟨others, tail, defined⟩
      cases defined
      rw [List.map_cons, List.map_cons, columnDefinition_name head, induction tail]

/-- The names of the columns that the adapter fills. -/
def filledNames (layout : ResourceLayout) : List String :=
  ["__record_version", "__created_at", "__updated_at"] ++
    (relationGeneratedColumns layout).map Column.name

theorem filledNames_nodup : (filledNames layout).Nodup := by
  unfold filledNames relationGeneratedColumns
  split
  · decide
  · decide

theorem filledNames_reserved :
    ∀ name ∈ filledNames layout, name ∈ ResourceLayout.reservedColumns ∧ name ≠ "__tenant" := by
  unfold filledNames relationGeneratedColumns
  split
  · decide
  · decide

/-- No scope column has the name of a column that the adapter fills. -/
theorem scopeColumns_not_reserved {name : String} (listed : name ∈ settings.scopeColumns)
    (reserved : name ∈ ResourceLayout.reservedColumns) : name = "__tenant" := by
  rcases List.mem_cons.mp listed with tenant | key
  · exact tenant
  · rcases List.mem_map.mp key with ⟨identifier, _, rfl⟩
    exfalso
    have tooShort : ∀ text ∈ ResourceLayout.reservedColumns,
        ¬ "__scope_".toList <+: text.toList := by decide
    apply tooShort _ reserved
    rw [String.toList_append]
    exact List.prefix_append _ _

theorem scopeColumns_nodup (unique : settings.scopeKeys.Nodup) : settings.scopeColumns.Nodup := by
  unfold PostgreSQLSettings.scopeColumns
  rw [List.nodup_cons]
  constructor
  · intro listed
    rcases List.mem_map.mp listed with ⟨key, _, same⟩
    have texts := congrArg String.toList same
    rw [String.toList_append] at texts
    exact absurd (texts ▸ List.prefix_append "__scope_".toList key.text.toList) (by decide)
  · apply unique.map
    intro left right same
    exact Identifier.ext (String.append_right_inj "__scope_" |>.mp same)

theorem columnDefinitions_names {columns : List (Column × Bool)}
    (defined : columnDefinitions settings layout = .ok columns) :
    (columns.map Prod.fst).map Column.name = (settings.scopeColumns ++
      layout.fields.map fun field => field.column.text) ++ filledNames layout := by
  rcases bind_eq_ok defined with ⟨fields, fieldsOk, defined⟩
  cases defined
  have scope : (scopeDefinitions settings).map Column.name = settings.scopeColumns := by
    rw [scopeDefinitions, List.map_map]
    exact List.map_id _
  simp only [List.map_append, List.map_map, Function.comp_def, filledNames]
  rw [← columnDefinition_names fieldsOk, ← scope, List.append_assoc]
  rfl

/-- The columns of a checked layout have different names. -/
theorem columnDefinitions_nodup (unique : settings.scopeKeys.Nodup)
    (valid : layout.check = .ok ()) {columns : List (Column × Bool)}
    (defined : columnDefinitions settings layout = .ok columns) :
    ((columns.map Prod.fst).map Column.name).Nodup := by
  have texts : (layout.fields.map fun field => field.column.text).Nodup := by
    have same : (layout.fields.map fun field => field.column.text) =
        (layout.fields.map FieldLayout.column).map Identifier.text := by
      rw [List.map_map]
      rfl
    rw [same]
    exact (columns_nodup valid).map fun left right same => Identifier.ext same
  rw [columnDefinitions_names defined]
  have inner : (settings.scopeColumns ++
      layout.fields.map fun field => field.column.text).Nodup := by
    apply (scopeColumns_nodup unique).append texts
    intro name scope listed
    rcases List.mem_map.mp listed with ⟨field, member, rfl⟩
    exact column_not_scope valid member settings scope
  apply inner.append filledNames_nodup
  intro name listed filled
  rcases filledNames_reserved name filled with ⟨reserved, different⟩
  rcases List.mem_append.mp listed with scope | field
  · exact different (scopeColumns_not_reserved scope reserved)
  · rcases List.mem_map.mp field with ⟨field, member, rfl⟩
    exact (column_not_owned valid member).1 reserved

end Names

/-! ## Running a plan -/

/-- The table whose columns a statement of a plan may change. -/
def altered : PlanStatement → Option String
  | .ddl statement => statement.altered
  | .marker _ _ => none

section Running

variable {server : Server} {settings : PostgreSQLSettings} {layout : ResourceLayout}
  {database next : Database} {statements : List PlanStatement}

theorem runStatement_ddl {statement : Statement}
    (ran : runStatement server database (.ddl statement) = .ok next) :
    database.catalog.execute server.refuses statement = some next.catalog := by
  unfold runStatement at ran
  dsimp only at ran
  split at ran
  · rename_i catalog executed
    cases ran
    exact executed
  · exact nomatch ran

theorem runStatements_ddl {statements : List Statement}
    (ran : runStatements server database (statements.map .ddl) = .ok next) :
    database.catalog.executeAll server.refuses statements = some next.catalog := by
  induction statements generalizing database with
  | nil =>
      cases ran
      rfl
  | cons statement rest induction =>
      rw [List.map_cons] at ran
      rcases runStatements_cons ran with ⟨middle, head, tail⟩
      rw [Catalog.executeAll, runStatement_ddl head]
      exact induction tail

theorem runStatement_marker {format fingerprint : String}
    (ran : runStatement server database (.marker format fingerprint) = .ok next) :
    next.catalog = database.catalog := by
  unfold runStatement at ran
  dsimp only at ran
  split at ran
  · exact nomatch ran
  · cases ran
    rfl

theorem runStatements_append {before after : List PlanStatement}
    (ran : runStatements server database (before ++ after) = .ok next) :
    ∃ middle, runStatements server database before = .ok middle ∧
      runStatements server middle after = .ok next := by
  induction before generalizing database with
  | nil => exact ⟨database, rfl, ran⟩
  | cons statement rest induction =>
      rcases runStatements_cons ran with ⟨first, head, tail⟩
      rcases induction tail with ⟨middle, begun, ended⟩
      refine ⟨middle, ?_, ended⟩
      rw [runStatements, head]
      exact begun

theorem runStatement_sound (sound : database.catalog.Sound) {statement : PlanStatement}
    (ran : runStatement server database statement = .ok next) : next.catalog.Sound := by
  cases statement with
  | ddl statement => exact Catalog.execute_sound sound (runStatement_ddl ran)
  | marker format fingerprint =>
      rw [runStatement_marker ran]
      exact sound

theorem runStatements_sound (sound : database.catalog.Sound)
    (ran : runStatements server database statements = .ok next) : next.catalog.Sound := by
  induction statements generalizing database with
  | nil =>
      cases ran
      exact sound
  | cons statement rest induction =>
      rcases runStatements_cons ran with ⟨middle, head, tail⟩
      exact induction (runStatement_sound sound head) tail

/-- Statements that are about other tables leave the columns of one alone. -/
theorem runStatements_columnsOf {table : String}
    (others : ∀ statement ∈ statements, altered statement ≠ some table)
    (ran : runStatements server database statements = .ok next) :
    next.catalog.columnsOf table = database.catalog.columnsOf table := by
  induction statements generalizing database with
  | nil =>
      cases ran
      rfl
  | cons statement rest induction =>
      rcases runStatements_cons ran with ⟨middle, head, tail⟩
      rw [induction (fun later listed => others later (List.mem_cons_of_mem _ listed)) tail]
      have other := others statement List.mem_cons_self
      cases statement with
      | ddl statement => exact Catalog.execute_columnsOf other (runStatement_ddl head)
      | marker format fingerprint => rw [runStatement_marker head]

/-- The columns that a table has before a resource's columns are added to it:
its own if it exists, and all of the resource's if it is created. -/
theorem resourceStatements_columns {catalog after : Catalog} {columns : List (Column × Bool)}
    (sound : catalog.Sound) (given : columns ≠ [])
    (executed : catalog.executeAll server.refuses (resourceStatements settings layout columns) =
      some after) :
    ∃ held, (catalog.columnsOf layout.table.text = some held ∨
        (catalog.columnsOf layout.table.text = none ∧
          held = (columns.map Prod.fst).map Column.truncated)) ∧
      (held.map Column.name).Nodup ∧ (∀ column ∈ held, Fits column.name) ∧
      after.columnsOf layout.table.text =
        some (((columns.map Prod.fst).map Column.truncated).foldl Catalog.extended held) := by
  have whole := identifier_truncated layout.table
  unfold resourceStatements at executed
  rw [List.cons_append] at executed
  rcases Catalog.executeAll_cons executed with ⟨created, creation, executed⟩
  rcases Catalog.executeAll_append executed with ⟨added, addition, indexing⟩
  have createdSound := Catalog.execute_sound sound creation
  have performed := (Catalog.execute_performs creation).2
  rw [Catalog.perform, whole] at performed
  have indexed : after.columnsOf layout.table.text = added.columnsOf layout.table.text := by
    apply Catalog.executeAll_columnsOf _ indexing
    intro statement listed
    rcases List.mem_map.mp listed with ⟨index, _, rfl⟩
    exact nofun
  have columnsOf := Catalog.columnsOf_createTable performed layout.table.text
  cases held : created.columnsOf layout.table.text with
  | none =>
      cases columns with
      | nil => exact absurd rfl given
      | cons column rest =>
          rw [List.map_cons] at addition
          rcases Catalog.executeAll_cons addition with ⟨middle, head, _⟩
          have adding := (Catalog.execute_performs head).2
          rw [Catalog.perform, whole] at adding
          rcases Catalog.addColumn_cases adding with ⟨present, primary, found, _⟩
          rw [Catalog.columnsOf_eq found] at held
          exact nomatch held
  | some held' =>
      refine ⟨held', ?_, (createdSound.columnsOf held).1, (createdSound.columnsOf held).2, ?_⟩
      · rw [columnsOf] at held
        split at held
        · rename_i free
          cases held
          refine .inr ⟨?_, rfl⟩
          rw [Catalog.columnsOf, free.2]
        · exact .inl held
      · rw [← whole] at held
        have grown := Catalog.executeAll_addColumns held addition
        rw [whole] at grown
        rw [indexed, grown, List.map_map]
        rfl

/-! ## Plans -/

variable {digests : Digests} {plan : MigrationPlan}

theorem compile_statements (compiled : compile digests settings = .ok plan) :
    ∃ layouts, List.Forall₂ (fun layout statements =>
        layoutStatements digests settings layout = .ok statements) settings.resources layouts ∧
      plan.statements = (adapterStatements settings).map .ddl ++ layouts.flatten := by
  unfold compile at compiled
  split at compiled
  · exact nomatch compiled
  · rcases bind_eq_ok compiled with ⟨_, _, compiled⟩
    rcases bind_eq_ok compiled with ⟨layouts, each, compiled⟩
    cases compiled
    exact ⟨layouts, forall₂_of_mapM each, rfl⟩

theorem adapterStatements_altered {statement : Statement} {table : String}
    (listed : statement ∈ adapterStatements settings) (alters : statement.altered = some table) :
    table ∈ ResourceLayout.reservedTables := by
  have each : ∀ statement ∈ adapterStatements settings,
      statement.altered.all fun table => decide (table ∈ ResourceLayout.reservedTables) := by
    intro statement listed
    unfold adapterStatements at listed
    simp only [List.mem_append] at listed
    rcases listed with (first | replay) | outbox
    · simp only [List.mem_cons, List.not_mem_nil, or_false] at first
      rcases first with rfl | rfl | rfl | rfl
      · rfl
      · rfl
      · decide
      · decide
    · split at replay
      · rw [List.mem_singleton.mp replay]
        decide
      · exact nomatch replay
    · split at outbox
      · revert statement
        decide
      · exact nomatch outbox
  have holds := each statement listed
  rw [alters] at holds
  simpa using holds

theorem resourceStatements_altered {columns : List (Column × Bool)} {statement : Statement}
    {table : String} (listed : statement ∈ resourceStatements settings layout columns)
    (alters : statement.altered = some table) : table = layout.table.text := by
  have whole := identifier_truncated layout.table
  unfold resourceStatements at listed
  rw [List.cons_append, List.mem_cons, List.mem_append] at listed
  rcases listed with rfl | added | indexed
  · exact (Option.some.inj alters).symm.trans whole
  · rcases List.mem_map.mp added with ⟨column, _, rfl⟩
    exact (Option.some.inj alters).symm.trans whole
  · rcases List.mem_map.mp indexed with ⟨index, _, rfl⟩
    exact nomatch alters

/-- The statements of a layout are about its table, or about the adapter's. -/
theorem layoutStatements_altered {statements : List PlanStatement} {table : String}
    (made : layoutStatements digests settings layout = .ok statements)
    {statement : PlanStatement} (listed : statement ∈ statements)
    (alters : altered statement = some table) :
    table = layout.table.text ∨ table ∈ ResourceLayout.reservedTables := by
  unfold layoutStatements at made
  split at made
  · cases made
    right
    have each : ∀ statement ∈ registryTables settings.physicalSchema.text,
        statement.altered.all fun table => decide (table ∈ ResourceLayout.reservedTables) := by
      intro statement listed
      simp only [registryTables, List.mem_cons, List.not_mem_nil, or_false] at listed
      rcases listed with rfl | rfl | rfl
      · rfl
      · decide
      · decide
    rcases List.mem_append.mp listed with inside | last
    · rcases List.mem_map.mp inside with ⟨ddl, member, rfl⟩
      have holds := each ddl member
      rw [show ddl.altered = some table from alters] at holds
      simpa using holds
    · rw [List.mem_singleton.mp last] at alters
      exact nomatch alters
  · left
    cases built : resource settings layout with
    | error error =>
        rw [built] at made
        exact nomatch made
    | ok ddl =>
        rw [built] at made
        cases made
        rcases bind_eq_ok built with ⟨columns, _, built⟩
        cases built
        rcases List.mem_map.mp listed with ⟨statement, member, rfl⟩
        exact resourceStatements_altered member alters

theorem layoutStatements_resource {statements : List PlanStatement}
    (data : layout.isRegistry = false)
    (made : layoutStatements digests settings layout = .ok statements) :
    ∃ columns, columnDefinitions settings layout = .ok columns ∧
      statements = (resourceStatements settings layout columns).map .ddl := by
  unfold layoutStatements at made
  rw [data] at made
  cases built : resource settings layout with
  | error error =>
      rw [built] at made
      exact nomatch made
  | ok ddl =>
      rw [built] at made
      cases made
      rcases bind_eq_ok built with ⟨columns, defined, built⟩
      cases built
      exact ⟨columns, defined, rfl⟩

/-- What the columns of a table were before, and are after a plan. -/
structure Grown (settings : PostgreSQLSettings) (layout : ResourceLayout)
    (before after : Catalog) (columns : List (Column × Bool)) (held : List Column) : Prop where
  defined : columnDefinitions settings layout = .ok columns
  source : before.columnsOf layout.table.text = some held ∨
    (before.columnsOf layout.table.text = none ∧
      held = (columns.map Prod.fst).map Column.truncated)
  distinct : (held.map Column.name).Nodup
  fit : ∀ column ∈ held, Fits column.name
  result : after.columnsOf layout.table.text =
    some (((columns.map Prod.fst).map Column.truncated).foldl Catalog.extended held)

theorem layouts_columnsOf {resources : List ResourceLayout}
    {layouts : List (List PlanStatement)} {table : String}
    (each : List.Forall₂ (fun layout statements =>
      layoutStatements digests settings layout = .ok statements) resources layouts)
    (others : ∀ layout ∈ resources, layout.table.text ≠ table)
    (free : table ∉ ResourceLayout.reservedTables) :
    ∀ statement ∈ layouts.flatten, altered statement ≠ some table := by
  induction each with
  | nil => exact nofun
  | cons made _ induction =>
      intro statement listed alters
      rw [List.flatten_cons, List.mem_append] at listed
      rcases listed with here | later
      · rcases layoutStatements_altered made here alters with same | reserved
        · exact others _ List.mem_cons_self same.symm
        · exact free reserved
      · exact induction (fun layout inside => others layout (List.mem_cons_of_mem _ inside))
          statement later alters

theorem layouts_grown {resources : List ResourceLayout} {layouts : List (List PlanStatement)}
    (each : List.Forall₂ (fun layout statements =>
      layoutStatements digests settings layout = .ok statements) resources layouts)
    (tables : (resources.map ResourceLayout.table).Nodup) (sound : database.catalog.Sound)
    (ran : runStatements server database layouts.flatten = .ok next)
    (listed : layout ∈ resources) (data : layout.isRegistry = false)
    (free : layout.table.text ∉ ResourceLayout.reservedTables) :
    ∃ columns held, Grown settings layout database.catalog next.catalog columns held := by
  induction each generalizing database with
  | nil => exact nomatch listed
  | @cons first statements rest layouts made each induction =>
      rw [List.flatten_cons] at ran
      rcases runStatements_append ran with ⟨middle, head, remaining⟩
      rw [List.map_cons, List.nodup_cons] at tables
      rcases List.mem_cons.mp listed with rfl | later
      · rcases layoutStatements_resource data made with ⟨columns, defined, rfl⟩
        rcases resourceStatements_columns sound (columnDefinitions_ne_nil defined)
          (runStatements_ddl head) with ⟨held, source, distinct, fit, result⟩
        refine ⟨columns, held, defined, source, distinct, fit, ?_⟩
        have others : ∀ statement ∈ layouts.flatten,
            altered statement ≠ some layout.table.text := by
          apply layouts_columnsOf each _ free
          intro other inside same
          exact tables.1 (List.mem_map.mpr ⟨other, inside, Identifier.ext same⟩)
        rw [runStatements_columnsOf others remaining, result]
      · have different : first.table.text ≠ layout.table.text := fun same =>
          tables.1 (List.mem_map.mpr ⟨layout, later, (Identifier.ext same).symm⟩)
        have untouched : middle.catalog.columnsOf layout.table.text =
            database.catalog.columnsOf layout.table.text := by
          apply runStatements_columnsOf _ head
          intro statement inside alters
          rcases layoutStatements_altered made inside alters with same | reserved
          · exact different same.symm
          · exact free reserved
        rcases induction tables.2 (runStatements_sound sound head) remaining later with
          ⟨columns, held, grown⟩
        exact ⟨columns, held, grown.defined, untouched ▸ grown.source, grown.distinct,
          grown.fit, grown.result⟩

end Running

end MeridianPostgreSQL.Migration
