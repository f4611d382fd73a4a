import MeridianPostgreSQL.Migration.DeclaredRelations

/-! # Realised plans

Whether the plan of accepted settings, on an empty schema, makes all that they
declare, and whether the probe then sees it. -/

namespace MeridianPostgreSQL.Migration

open Settings Catalogs Schema

/-! ## Realisation -/

/-- The indexes that stand for a declared one. Endpoints have a generated index
each. -/
def standingNames (layout : ResourceLayout) (index : IndexLayout) : List String :=
  if index.kind = .relationEndpoint then
    [endpointName layout "source", endpointName layout "target"]
  else [indexName layout index]

/-- Rows are known to agree on columns. -/
def Agree (columns : List String) (left right : String → Option String) : Prop :=
  ∀ column ∈ columns, left column ≠ none ∧ left column = right column

/-- An index keeps two rows apart. -/
def Forbids (index : Index) (left right : String → Option String) : Prop :=
  index.unique = true ∧ Agree index.columns left right

structure Realised (server : Server) (settings : PostgreSQLSettings) (database : Database) :
    Prop where
  relations : ∀ entry ∈ declared settings, database.catalog.find entry.1 = some entry.2
  /-- Unique indexes keep their fields unique within a scope. -/
  unique : ∀ layout ∈ settings.resources, ∀ index ∈ layout.indexes, index.unique = true →
    ∃ made, database.catalog.find (indexName layout index) = some (.index made) ∧
      made.table = layout.table.text ∧ ∀ left right, Forbids made left right ↔
        Agree (settings.scopeColumns ++ fieldColumns layout index.fields) left right
  probed : ∀ layout ∈ settings.resources,
    verifyTableShape server settings database layout = .ok ()

/-- What a table that the probe accepts has of each declared index. -/
def ProbeFinds (server : Server) (settings : PostgreSQLSettings) : Prop :=
  ∀ database, ∀ layout ∈ settings.resources,
    verifyTableShape server settings database layout = .ok () →
      ∀ index ∈ layout.indexes, ∀ name ∈ standingNames layout index,
        name ∈ database.catalog.indexesOf layout.table.text

/-- A plan makes all that its settings declare, and the probe finds it. -/
def Realises (server : Server) (settings : PostgreSQLSettings) (plan : MigrationPlan) : Prop :=
  (∃ evidence next, apply server settings plan none .empty = .ok (evidence, next) ∧
    Realised server settings next) ∧ ProbeFinds server settings

/-! ## Conditions -/

/-- Settings whose names fit and are asked for one relation each. -/
structure Realisable (server : Server) (settings : PostgreSQLSettings)
    (plan : MigrationPlan) : Prop where
  keys : ∀ layout ∈ settings.resources, layout.isRegistry = false →
    Fits (layout.table.text ++ "_pkey")
  indexes : ∀ layout ∈ settings.resources, layout.isRegistry = false →
    ∀ index ∈ declaredIndexes settings layout ++ endpointIndexes settings layout, Fits index.1
  scope : (∃ layout ∈ settings.resources, layout.isRegistry = false) →
    ∀ column ∈ settings.scopeColumns, Fits column
  hashes : ∀ layout ∈ settings.resources, layout.isRegistry = false →
    ∀ index ∈ layout.indexes, index.kind = .hash → index.fields.length = 1
  consistent : Consistent (declared settings)
  accepts : Accepts server .empty plan.statements

/-! ## Settings that are realised -/

section Realising

variable {server : Server} {settings : PostgreSQLSettings} {plan : MigrationPlan}
  {layout : ResourceLayout} {database : Database}

theorem planned_own_fit {statements : List Statement}
    (own : ∀ statement ∈ statements, Own statement) :
    ∀ entry ∈ planned statements, Fits entry.1 := by
  intro entry listed
  obtain ⟨statement, inside, asked⟩ := List.mem_flatMap.mp listed
  have reserved := own statement inside
  cases statement with
  | createTable table columns primary =>
      have short : ∀ name ∈ ResourceLayout.reservedTables, Fits name := by decide
      rcases List.mem_cons.mp asked with rfl | key
      · exact short table reserved
      · rw [List.mem_singleton.mp key]
        exact primaryName_fits table 0
  | createIndex other definition => cases reserved
  | addColumn table column defaulted => cases reserved
  | elsewhere text => cases asked

theorem declared_fit (realisable : Realisable server settings plan) :
    ∀ entry ∈ declared settings, Fits entry.1 := by
  intro entry listed
  rcases List.mem_append.mp listed with adapter | resources
  · exact planned_own_fit (fun statement member => (adapterStatements_own statement member).1)
      entry adapter
  · obtain ⟨layout, inside, asked⟩ := List.mem_flatMap.mp resources
    cases data : layout.isRegistry with
    | true =>
        rw [layoutRelations, if_pos data] at asked
        exact planned_own_fit (fun statement member => (registryTables_own statement member).1)
          entry asked
    | false =>
        simp only [layoutRelations, data, Bool.false_eq_true, if_false] at asked
        split at asked
        · cases asked
        · rcases List.mem_cons.mp asked with rfl | asked
          · exact identifier_fits layout.table
          · rcases List.mem_cons.mp asked with rfl | asked
            · exact primaryName_fits _ 0
            · obtain ⟨index, made, rfl⟩ := List.mem_map.mp asked
              exact realisable.indexes layout inside data index made

theorem compile_fingerprints {digests : Digests} (compiled : compile digests settings = .ok plan) :
    settings.readOnly = false ∧ plan.resourceFingerprints =
      settings.resources.map fun layout => (layout.ref.canonical, layout.resourceFingerprint) := by
  unfold compile at compiled
  split at compiled
  · cases compiled
  · rename_i writable
    obtain ⟨_, _, compiled⟩ := bind_eq_ok compiled
    obtain ⟨layouts, _, compiled⟩ := bind_eq_ok compiled
    cases compiled
    exact ⟨eq_false_of_ne_true writable, rfl⟩

/-- The rows of a plan are found in the settings that it was made of. -/
theorem plannedRows_total {digests : Digests} (compiled : compile digests settings = .ok plan) :
    ∃ rows, plannedRows settings plan = .ok rows := by
  have total : ∀ resources : List ResourceLayout, resources ⊆ settings.resources →
      ∃ rows, (resources.map fun layout => (layout.ref.canonical, layout.resourceFingerprint)).mapM
        (plannedRow settings plan) = .ok rows := by
    intro resources contained
    induction resources with
    | nil => exact ⟨[], rfl⟩
    | cons layout rest induction =>
        obtain ⟨rows, others⟩ := induction fun other listed =>
          contained (List.mem_cons_of_mem _ listed)
        have known : (settings.layout layout.ref.canonical).isSome = true := by
          rw [PostgreSQLSettings.layout, List.find?_isSome]
          exact ⟨layout, contained List.mem_cons_self, by simp⟩
        obtain ⟨found, held⟩ := Option.isSome_iff_exists.mp known
        refine ⟨⟨layout.ref.canonical, layout.resourceFingerprint, found.schemaFingerprint,
          found.profile, plan.physicalFingerprint⟩ :: rows, ?_⟩
        rw [List.map_cons, List.mapM_cons, others, plannedRow, held]
        rfl
  rw [plannedRows, (compile_fingerprints compiled).2]
  exact total settings.resources (List.Subset.refl _)

/-- The markers of a compiled plan are those of its registry. -/
theorem compile_marker {digests : Digests} (compiled : compile digests settings = .ok plan) :
    (∀ format fingerprint, .marker format fingerprint ∈ plan.statements →
      (format, fingerprint) =
        (registryFormat, digests.registry settings.physicalSchema.text)) ∧
    ((∃ layout ∈ settings.resources, layout.isRegistry = true) →
      .marker registryFormat (digests.registry settings.physicalSchema.text) ∈
        plan.statements) := by
  obtain ⟨chunks, each, statements⟩ := compile_statements compiled
  rw [statements]
  constructor
  · intro format fingerprint listed
    rcases List.mem_append.mp listed with adapter | resources
    · obtain ⟨_, _, impossible⟩ := List.mem_map.mp adapter
      cases impossible
    · obtain ⟨chunk, inside, member⟩ := List.mem_flatten.mp resources
      obtain ⟨layout, _, made⟩ := chunk_of_layout each inside
      cases data : layout.isRegistry with
      | true =>
          rw [layoutStatements, if_pos data] at made
          cases made
          rcases List.mem_append.mp member with ddl | last
          · obtain ⟨_, _, impossible⟩ := List.mem_map.mp ddl
            cases impossible
          · cases List.mem_singleton.mp last
            rfl
      | false =>
          obtain ⟨columns, _, rfl⟩ := layoutStatements_resource data made
          obtain ⟨_, _, impossible⟩ := List.mem_map.mp member
          cases impossible
  · rintro ⟨layout, listed, registry⟩
    apply List.mem_append_right
    clear statements
    generalize settings.resources = resources at each listed
    induction each with
    | nil => cases listed
    | cons made _ induction =>
        rw [List.flatten_cons, List.mem_append]
        rcases List.mem_cons.mp listed with rfl | later
        · rw [layoutStatements, if_pos registry] at made
          cases made
          exact .inl (List.mem_append_right _ (List.mem_singleton_self _))
        · exact .inr (induction later)

/-- The storage of the registry, when its tables and its marker are there. -/
theorem verifyRegistry_of_declared (listed : layout ∈ settings.resources)
    (registry : layout.isRegistry = true)
    (relations : ∀ entry ∈ declared settings, database.catalog.find entry.1 = some entry.2)
    (marker : database.marker =
      some (registryFormat, server.digests.registry settings.physicalSchema.text)) :
    verifySchemaRepository server settings.physicalSchema.text database =
      .ok (server.digests.registry settings.physicalSchema.text) := by
  have asked : ∀ entry ∈ planned (registryTables settings.physicalSchema.text),
      database.catalog.find entry.1 = some entry.2 := by
    intro entry inside
    apply relations entry (mem_declared_layout listed _)
    rw [layoutRelations, if_pos registry]
    exact inside
  have migration := asked ("__meridian_schema_registry_migration",
    .table registryMigrationColumns ["singleton"])
    (mem_planned (List.mem_cons_of_mem _ List.mem_cons_self) List.mem_cons_self)
  have rows := asked ("__meridian_schema_registry", .table registryColumns ["tenant", "scope"])
    (mem_planned (List.mem_cons_of_mem _ (List.mem_cons_of_mem _ List.mem_cons_self))
      List.mem_cons_self)
  rw [verifySchemaRepository]
  exact if_pos ⟨migration, rows, marker⟩

/-- The probe accepts a resource table that has what is declared, and nothing
else. -/
theorem verify_of_declared (checked : settings.Checked) (listed : layout ∈ settings.resources)
    (data : layout.isRegistry = false) (key : Fits (layout.table.text ++ "_pkey"))
    {columns : List Column} (expected : expectedColumns settings layout = .ok columns)
    (relations : ∀ entry ∈ declared settings, database.catalog.find entry.1 = some entry.2)
    (asked : ∀ entry ∈ database.catalog.relations, entry ∈ declared settings) :
    verifyTableShape server settings database layout = .ok () := by
  have own : ∀ entry ∈ tableRelations settings layout columns,
      database.catalog.find entry.1 = some entry.2 := by
    intro entry inside
    apply relations entry (mem_declared_layout listed _)
    rw [layoutRelations_data data expected]
    exact inside
  have observed : observedColumns database layout = columns := by
    rw [observedColumns, Catalog.columnsOf_eq (own _ List.mem_cons_self), Option.getD_some]
  have keyName := primaryName_zero key
  have found : expectedIndexes layout ⊆ database.catalog.indexesOf layout.table.text := by
    intro name inside
    have held : ∃ index : Index, index.table = layout.table.text ∧
        (name, .index index) ∈ database.catalog.relations := by
      rcases (mem_expectedIndexes settings).mp inside with rfl | ⟨entry, made, rfl⟩
      · have stands := own _ (List.mem_cons_of_mem _ List.mem_cons_self)
        rw [keyName] at stands
        exact ⟨_, rfl, Catalog.mem_of_find stands⟩
      · refine ⟨entry.2, ?_, Catalog.mem_of_find (own _ (mem_tableRelations_index made))⟩
        rcases List.mem_append.mp made with declared | endpoint
        · obtain ⟨_, _, _, defined⟩ := declaredIndexes_cases declared
          exact (indexDefinition_cases defined).1
        · exact (endpointIndexes_cases endpoint).2.2.1
    obtain ⟨index, table, member⟩ := held
    exact List.mem_map.mpr ⟨_, List.mem_filter.mpr ⟨member, by simpa using table⟩, rfl⟩
  have known : database.catalog.indexesOf layout.table.text ⊆ expectedIndexes layout := by
    intro name inside
    obtain ⟨⟨other, relation⟩, member, rfl⟩ := List.mem_map.mp inside
    obtain ⟨held, indexed⟩ := List.mem_filter.mp member
    cases relation with
    | table _ _ => cases indexed
    | index index =>
        have table : index.table = layout.table.text := by simpa using indexed
        apply (mem_expectedIndexes settings).mpr
        have made := index_of_declared checked listed data expected (asked _ held) table
        rcases List.mem_cons.mp made with impossible | made
        · cases impossible
        · rcases List.mem_cons.mp made with key | made
          · left
            rw [(Prod.mk.inj key).1, keyName]
          · obtain ⟨entry, stands, same⟩ := List.mem_map.mp made
            exact .inr ⟨entry, stands, (Prod.mk.inj same).1⟩
  rw [verifyTableShape, data, expected]
  simp only [Bool.false_eq_true, if_false, bind, Except.bind, observed]
  rw [if_neg (not_not.mpr (List.Perm.refl columns)), if_neg (not_not.mpr ⟨known, found⟩)]

/-- A unique index keeps rows apart that agree on the scope and its fields. -/
theorem unique_of_declared (accepted : settings.check = .ok ())
    (listed : layout ∈ settings.resources) (data : layout.isRegistry = false)
    {columns : List Column} (expected : expectedColumns settings layout = .ok columns)
    (relations : ∀ entry ∈ declared settings, database.catalog.find entry.1 = some entry.2)
    {index : IndexLayout} (inside : index ∈ layout.indexes) (unique : index.unique = true) :
    ∃ made, database.catalog.find (indexName layout index) = some (.index made) ∧
      made.table = layout.table.text ∧ ∀ left right, Forbids made left right ↔
        Agree (settings.scopeColumns ++ fieldColumns layout index.fields) left right := by
  have kind := unique_btree accepted listed inside unique
  have defined : indexDefinition settings layout index = some ⟨layout.table.text, .btree, true,
      settings.scopeColumns ++ fieldColumns layout index.fields⟩ := by
    rw [indexDefinition, kind, unique]
  refine ⟨⟨layout.table.text, .btree, true,
    settings.scopeColumns ++ fieldColumns layout index.fields⟩, ?_, rfl, ?_⟩
  · apply relations (_, _) (mem_declared_layout listed _)
    rw [layoutRelations_data data expected]
    exact mem_tableRelations_index (List.mem_append_left _ (mem_declaredIndexes inside defined))
  · intro left right
    exact ⟨And.right, fun agree => ⟨rfl, agree⟩⟩

theorem verify_data (data : layout.isRegistry = false)
    (verified : verifyTableShape server settings database layout = .ok ()) :
    expectedIndexes layout ⊆ database.catalog.indexesOf layout.table.text := by
  simp only [verifyTableShape, data, Bool.false_eq_true, if_false] at verified
  obtain ⟨expected, _, verified⟩ := bind_eq_ok verified
  split at verified
  · cases verified
  · split at verified
    · cases verified
    · rename_i same
      exact (not_not.mp same).2

/-- Whatever the schema holds, a table that the probe accepts has an index of
each declared name. -/
theorem probe_finds (accepted : settings.check = .ok ()) : ProbeFinds server settings := by
  have checked := settings_checked accepted
  intro database layout listed verified index inside name stands
  cases data : layout.isRegistry with
  | true =>
      rw [registry_indexes checked listed data] at inside
      cases inside
  | false =>
      apply verify_data data verified
      apply (mem_expectedIndexes settings).mpr
      right
      unfold standingNames at stands
      split at stands
      · rename_i endpoint
        have related := (index_checked (data_checked checked listed data) inside).2 endpoint
        have made : (endpointIndexes settings layout).map Prod.fst =
            [endpointName layout "source", endpointName layout "target"] := by
          rw [endpointIndexes, if_pos related]
          rfl
        rw [← made] at stands
        obtain ⟨entry, generated, named⟩ := List.mem_map.mp stands
        exact ⟨entry, List.mem_append_right _ generated, named⟩
      · rename_i kind
        obtain ⟨definition, defined⟩ := Option.isSome_iff_exists.mp
          ((indexDefinition_isSome settings).mpr kind)
        rw [List.mem_singleton.mp stands]
        exact ⟨_, List.mem_append_left _ (mem_declaredIndexes inside defined), rfl⟩

theorem compile_expected (compiled : compile server.digests settings = .ok plan)
    (listed : layout ∈ settings.resources) (data : layout.isRegistry = false) :
    ∃ columns, columnDefinitions settings layout = .ok columns ∧
      expectedColumns settings layout = .ok (columns.map Prod.fst) := by
  obtain ⟨columns, defined⟩ := compile_columns compiled listed data
  refine ⟨columns, defined, ?_⟩
  rw [expectedColumns_eq, defined]
  rfl

/-- The metadata tables are among what settings declare. -/
theorem recordPlan_total {rows : List MetadataRow}
    (relations : ∀ entry ∈ declared settings, database.catalog.find entry.1 = some entry.2)
    (planned : plannedRows settings plan = .ok rows) : ∃ next : Database,
      next.catalog = database.catalog ∧ next.marker = database.marker ∧
        recordPlan settings plan database = .ok next := by
  have table : ∀ {name : String} {columns : List Column} {primary : List String},
      .createTable name columns primary ∈ adapterStatements settings →
        database.catalog.columnsOf name ≠ none := by
    intro name columns primary made
    rw [Catalog.columnsOf_eq (relations _ (mem_declared_adapter made List.mem_cons_self))]
    exact Option.some_ne_none columns
  have resources : metadataTable ∈ adapterStatements settings := by simp [adapterStatements]
  have migrations : migrationTable ∈ adapterStatements settings := by simp [adapterStatements]
  refine ⟨{ database with
    resources := rows.foldl upserted database.resources
    migrations := database.migrations ++ [plan.planFingerprint] }, rfl, rfl, ?_⟩
  rw [recordPlan, planned]
  exact if_neg (not_or.mpr ⟨table resources, table migrations⟩)

theorem realises_of_realisable (accepted : settings.check = .ok ())
    (compiled : compile server.digests settings = .ok plan)
    (realisable : Realisable server settings plan) : Realises server settings plan := by
  have checked := settings_checked accepted
  have ordered := compile_ordered checked compiled realisable.scope realisable.hashes
  have requests := compile_planned compiled
  obtain ⟨migrated, ran, reflects⟩ := runStatements_reflects Catalog.reflects_empty ordered
    (by rw [List.nil_append, requests]; exact realisable.consistent)
    (by rw [requests]; exact declared_fit realisable) realisable.accepts
  rw [List.nil_append] at reflects
  have relations : ∀ entry ∈ declared settings,
      migrated.catalog.find entry.1 = some entry.2 := requests ▸ reflects.realises
  have asked : ∀ entry ∈ migrated.catalog.relations, entry ∈ declared settings :=
    requests ▸ reflects.asked
  have registry : ∀ layout ∈ settings.resources, layout.isRegistry = true →
      ∀ database : Database, database.catalog = migrated.catalog →
        database.marker = migrated.marker →
        verifySchemaRepository server settings.physicalSchema.text database =
          .ok (server.digests.registry settings.physicalSchema.text) := by
    intro layout listed kind database catalog marker
    obtain ⟨single, present⟩ := compile_marker compiled
    apply verifyRegistry_of_declared listed kind (catalog ▸ relations)
    rw [marker]
    exact runStatements_marker ran single (.inr ⟨rfl, present ⟨layout, listed, kind⟩⟩)
  obtain ⟨rows, planned⟩ := plannedRows_total compiled
  obtain ⟨next, same, sameMarker, written⟩ := recordPlan_total relations planned
  have verified : verifyRegistry server settings migrated = .ok () := by
    unfold verifyRegistry
    split
    · rename_i needed
      obtain ⟨layout, listed, kind⟩ := List.any_eq_true.mp needed
      rw [registry layout listed kind migrated rfl rfl]
      rfl
    · rfl
  have ended : apply server settings plan none .empty =
      .ok (⟨plan.planFingerprint, plan.physicalFingerprint, true⟩, next) := by
    unfold apply
    rw [(compile_fingerprints compiled).1]
    have unknown : recorded plan Database.empty = false := rfl
    simp only [checkExpected, unknown, ran, verified, written, Bool.false_eq_true, if_false, bind,
      Except.bind]
  refine ⟨⟨_, next, ended, ?_, ?_, ?_⟩, probe_finds accepted⟩
  · rw [same]
    exact relations
  · intro layout listed index inside unique
    cases data : layout.isRegistry with
    | true =>
        rw [registry_indexes checked listed data] at inside
        cases inside
    | false =>
        obtain ⟨columns, _, expected⟩ := compile_expected compiled listed data
        exact unique_of_declared accepted listed data expected (same ▸ relations) inside unique
  · intro layout listed
    cases data : layout.isRegistry with
    | true =>
        rw [verifyTableShape, if_pos data, registry layout listed data next same sameMarker]
        rfl
    | false =>
        obtain ⟨columns, _, expected⟩ := compile_expected compiled listed data
        exact verify_of_declared checked listed data (realisable.keys layout listed data) expected
          (same ▸ relations) (same ▸ asked)

theorem mem_names_of_indexesOf {catalog : Catalog} {table name : String}
    (listed : name ∈ catalog.indexesOf table) : name ∈ catalog.names := by
  obtain ⟨entry, inside, rfl⟩ := List.mem_map.mp listed
  exact List.mem_map_of_mem (List.mem_filter.mp inside).1

theorem mem_plan_of_layout (compiled : compile server.digests settings = .ok plan)
    (listed : layout ∈ settings.resources) (data : layout.isRegistry = false)
    {columns : List (Column × Bool)} (defined : columnDefinitions settings layout = .ok columns)
    {statement : Statement} (inside : statement ∈ resourceStatements settings layout columns) :
    .ddl statement ∈ plan.statements := by
  obtain ⟨chunks, each, statements⟩ := compile_statements compiled
  rw [statements]
  apply List.mem_append_right
  clear statements
  generalize settings.resources = resources at each listed
  induction each with
  | nil => cases listed
  | cons made _ induction =>
      rw [List.flatten_cons, List.mem_append]
      rcases List.mem_cons.mp listed with rfl | later
      · obtain ⟨others, same, rfl⟩ := layoutStatements_resource data made
        rw [defined] at same
        cases same
        exact .inl (List.mem_map_of_mem inside)
      · exact .inr (induction later)

/-- An index on a hash has one column in a plan that runs. -/
theorem hashes_of_ran {next : Database} (checked : settings.Checked)
    (compiled : compile server.digests settings = .ok plan)
    (ran : runStatements server database plan.statements = .ok next)
    (listed : layout ∈ settings.resources) (data : layout.isRegistry = false)
    {index : IndexLayout} (inside : index ∈ layout.indexes) (kind : index.kind = .hash) :
    index.fields.length = 1 := by
  obtain ⟨columns, defined, _⟩ := compile_expected compiled listed data
  have definition : indexDefinition settings layout index = some
      ⟨layout.table.text, .hash, index.unique, fieldColumns layout index.fields⟩ := by
    rw [indexDefinition, kind]
  have member : .createIndex (indexName layout index)
      ⟨layout.table.text, .hash, index.unique, fieldColumns layout index.fields⟩ ∈
        resourceStatements settings layout columns := by
    have named := List.mem_append_left (endpointIndexes settings layout)
      (mem_declaredIndexes inside definition)
    unfold resourceStatements
    rw [List.cons_append, List.mem_cons, List.mem_append]
    exact .inr (.inr (List.mem_map_of_mem named))
  obtain ⟨before, after, made⟩ := runStatements_each ran
    (mem_plan_of_layout compiled listed data defined member)
  have performed := (Catalog.execute_performs (runStatement_ddl made)).2
  obtain ⟨_, _, _, single, _⟩ := Catalog.createIndex_cases performed
  have length : ((fieldColumns layout index.fields).map truncated).length = 1 := single rfl
  rw [List.length_map,
    fieldColumns_length (index_checked (data_checked checked listed data) inside).1] at length
  exact length

theorem realisable_of_realises (accepted : settings.check = .ok ())
    (compiled : compile server.digests settings = .ok plan)
    (realises : Realises server settings plan) : Realisable server settings plan := by
  have checked := settings_checked accepted
  obtain ⟨⟨evidence, next, applied, realised⟩, _⟩ := realises
  obtain ⟨migrated, ran, same, _, _⟩ := applied_first applied
  have sound : next.catalog.Sound := by
    rw [same]
    exact runStatements_sound Catalog.sound_empty ran
  have named : ∀ entry ∈ declared settings, Fits entry.1 := fun entry listed =>
    sound.fit _ (Catalog.mem_names_of_find (realised.relations entry listed))
  have own : ∀ layout ∈ settings.resources, layout.isRegistry = false →
      ∃ columns, columnDefinitions settings layout = .ok columns ∧
        ∀ entry ∈ tableRelations settings layout (columns.map Prod.fst),
          entry ∈ declared settings := by
    intro layout listed data
    obtain ⟨columns, defined, expected⟩ := compile_expected compiled listed data
    refine ⟨columns, defined, fun entry inside => mem_declared_layout listed ?_⟩
    rw [layoutRelations_data data expected]
    exact inside
  refine ⟨?_, ?_, ?_, ?_, Catalog.consistent_of_find realised.relations, accepts_of_ran ran⟩
  · intro layout listed data
    have found := verify_data data (realised.probed layout listed)
    exact sound.fit _ (mem_names_of_indexesOf (found List.mem_cons_self))
  · intro layout listed data index inside
    obtain ⟨columns, _, all⟩ := own layout listed data
    exact named _ (all _ (mem_tableRelations_index inside))
  · rintro ⟨layout, listed, data⟩ column inside
    obtain ⟨columns, defined, all⟩ := own layout listed data
    have table := realised.relations _ (all _ List.mem_cons_self)
    have fit := (sound.columns (Catalog.mem_of_find table)).2
    have given : column ∈ (columns.map Prod.fst).map Column.name := by
      rw [columnDefinitions_names defined]
      exact List.mem_append_left _ (List.mem_append_left _ inside)
    obtain ⟨held, member, rfl⟩ := List.mem_map.mp given
    exact fit held member
  · intro layout listed data index inside kind
    exact hashes_of_ran checked compiled ran listed data inside kind

end Realising

/-- The plan of accepted settings makes all that they declare on an empty
schema, where the probe then finds it, if and only if names fit, no name is
asked for two relations, and hash indexes are on one field. -/
theorem plan_realised_iff {server : Server} {settings : PostgreSQLSettings} {plan : MigrationPlan}
    (accepted : settings.check = .ok ()) (compiled : compile server.digests settings = .ok plan) :
    Realises server settings plan ↔ Realisable server settings plan :=
  ⟨realisable_of_realises accepted compiled, realises_of_realisable accepted compiled⟩

/-! ## Examples -/

theorem accepts_of_willing {digests : Digests} {database : Database}
    {statements : List PlanStatement} :
    Accepts ⟨digests, fun _ _ => false⟩ database statements := by
  induction statements generalizing database with
  | nil => trivial
  | cons statement rest induction => exact ⟨fun _ _ => rfl, fun _ _ => induction⟩

theorem plan_realised_work : Realises kindServer workSettings (kindPlan workSettings) := by
  rw [plan_realised_iff (by decide) (kindPlan_compiled (by decide))]
  refine ⟨?_, ?_, ?_, ?_, ?_, accepts_of_willing⟩
  · decide
  · decide
  · intro _
    decide
  · decide
  · unfold Consistent
    decide

/-- An index that takes the name of the primary key. -/
def collidingSettings : PostgreSQLSettings :=
  { workSettings with resources := [{ workLayout with
      indexes := [⟨⟨"pkey", by decide⟩, .btree, ["state"], true⟩] }] }

example : collidingSettings.check = .ok () ∧ ¬ Consistent (declared collidingSettings) := by
  unfold Consistent
  decide

end MeridianPostgreSQL.Migration
