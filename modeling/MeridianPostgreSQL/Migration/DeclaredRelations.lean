import MeridianPostgreSQL.Foundation.PlannedCatalogs
import MeridianPostgreSQL.Migration.ShapeEvolution

/-! # Declared relations

The relations that settings declare, and the plan that asks for them: each of
its statements has what it needs of those before it. -/

namespace MeridianPostgreSQL.Migration

open Settings Catalogs Schema

/-! ## Declarations -/

/-- The relations of a resource table with these columns. -/
def tableRelations (settings : PostgreSQLSettings) (layout : ResourceLayout)
    (columns : List Column) : List (String × Relation) :=
  (layout.table.text, .table columns (primaryColumns settings layout)) ::
    (primaryName layout.table.text 0,
      .index ⟨layout.table.text, .btree, true, primaryColumns settings layout⟩) ::
    (declaredIndexes settings layout ++ endpointIndexes settings layout).map fun index =>
      (index.1, .index index.2)

def layoutRelations (settings : PostgreSQLSettings) (layout : ResourceLayout) :
    List (String × Relation) :=
  if layout.isRegistry then planned (registryTables settings.physicalSchema.text)
  else
    match expectedColumns settings layout with
    | .error _ => []
    | .ok columns => tableRelations settings layout columns

/-- All relations that settings declare. -/
def declared (settings : PostgreSQLSettings) : List (String × Relation) :=
  planned (adapterStatements settings) ++ settings.resources.flatMap (layoutRelations settings)

/-! ## Plans in order -/

def requested : PlanStatement → List Statement
  | .ddl statement => [statement]
  | .marker _ _ => []

/-- A statement has what it needs of those before it. -/
def Prepared (earlier : List Statement) : PlanStatement → Prop
  | .ddl statement => statement.Follows earlier
  | .marker _ _ => ∃ columns primary,
      .createTable "__meridian_schema_registry_migration" columns primary ∈ earlier

def Ordered : List Statement → List PlanStatement → Prop
  | _, [] => True
  | earlier, statement :: rest =>
      Prepared earlier statement ∧ Ordered (earlier ++ requested statement) rest

section Order

variable {earlier later : List Statement} {statements : List PlanStatement}

theorem Prepared.mono {statement : PlanStatement} (prepared : Prepared earlier statement)
    (more : earlier ⊆ later) : Prepared later statement := by
  cases statement with
  | ddl statement => exact Statement.Follows.mono prepared more
  | marker format fingerprint =>
      obtain ⟨columns, primary, created⟩ := prepared
      exact ⟨columns, primary, more created⟩

theorem ordered_of_prepared (each : ∀ statement ∈ statements, Prepared earlier statement) :
    Ordered earlier statements := by
  induction statements generalizing earlier with
  | nil => trivial
  | cons statement rest induction =>
      refine ⟨each statement List.mem_cons_self, induction ?_⟩
      intro later listed
      exact (each later (List.mem_cons_of_mem _ listed)).mono (List.subset_append_left _ _)

theorem Ordered.append {second : List PlanStatement} (first : Ordered earlier statements)
    (after : Ordered (earlier ++ statements.flatMap requested) second) :
    Ordered earlier (statements ++ second) := by
  induction statements generalizing earlier with
  | nil => simpa using after
  | cons statement rest induction =>
      refine ⟨first.1, induction first.2 ?_⟩
      rw [List.append_assoc, ← List.flatMap_cons]
      exact after

theorem requested_ddl (statements : List Statement) :
    (statements.map PlanStatement.ddl).flatMap requested = statements := by
  rw [List.flatMap_map]
  exact List.flatMap_singleton' statements

end Order

/-! ## Columns of fields -/

section Fields

variable {layout : ResourceLayout} {settings : PostgreSQLSettings}

theorem field_of_name {name : String} (listed : name ∈ layout.fieldNames) :
    ∃ field, layout.field name = some field := by
  obtain ⟨field, inside, named⟩ := List.mem_map.mp listed
  apply Option.isSome_iff_exists.mp
  rw [ResourceLayout.field, List.find?_isSome]
  exact ⟨field, inside, by simpa using named⟩

theorem fieldColumns_length {names : List String} (listed : names ⊆ layout.fieldNames) :
    (fieldColumns layout names).length = names.length := by
  induction names with
  | nil => rfl
  | cons name rest induction =>
      obtain ⟨field, found⟩ := field_of_name (listed List.mem_cons_self)
      have others := induction fun other inside => listed (List.mem_cons_of_mem _ inside)
      simp only [fieldColumns, List.filterMap_cons, found, Option.map_some, List.length_cons]
      exact congrArg Nat.succ others

theorem fieldColumns_subset (names : List String) :
    fieldColumns layout names ⊆ layout.fields.map fun field => field.column.text := by
  intro column listed
  obtain ⟨name, _, found⟩ := List.mem_filterMap.mp listed
  obtain ⟨field, held, rfl⟩ := Option.map_eq_some_iff.mp found
  exact List.mem_map.mpr ⟨field, (field_found held).1, rfl⟩

/-- An index of a checked layout is on declared fields, and has a relation if
it is on an endpoint. -/
theorem index_checked (valid : layout.Checked) {index : IndexLayout}
    (listed : index ∈ layout.indexes) : index.fields ⊆ layout.fieldNames ∧
      (index.kind = .relationEndpoint → layout.relation.isSome = true) := by
  have checked := forM_ok valid.indexes index listed
  unfold ResourceLayout.checkIndex at checked
  dsimp only at checked
  split at checked
  · cases checked
  · rename_i contained
    refine ⟨not_not.mp contained, ?_⟩
    intro endpoint
    rw [endpoint] at checked
    split at checked
    · cases checked
    · split at checked
      · cases checked
      · rw [if_pos rfl] at checked
        cases relation : layout.relation with
        | none =>
            rw [relation] at checked
            cases checked
        | some other => rfl

/-- Unique indexes are trees. -/
theorem unique_btree (accepted : settings.check = .ok ()) (listed : layout ∈ settings.resources)
    {index : IndexLayout} (inside : index ∈ layout.indexes) (unique : index.unique = true) :
    index.kind = .btree := by
  unfold PostgreSQLSettings.check at accepted
  split at accepted
  · cases accepted
  · obtain ⟨_, each, _⟩ := accepted_bind accepted
    obtain ⟨number, bound, rfl⟩ := List.getElem_of_mem listed
    have member : (settings.resources[number], number) ∈ settings.resources.zipIdx := by
      rw [List.mk_mem_zipIdx_iff_getElem?]
      exact List.getElem?_eq_getElem bound
    obtain ⟨_, _, mapped⟩ := accepted_bind (forM_ok each _ member)
    obtain ⟨_, indexes, _⟩ := accepted_bind mapped
    obtain ⟨place, placed, rfl⟩ := List.getElem_of_mem inside
    have entry : (settings.resources[number].indexes[place], place) ∈
        settings.resources[number].indexes.zipIdx := by
      rw [List.mk_mem_zipIdx_iff_getElem?]
      exact List.getElem?_eq_getElem placed
    have valid := forM_ok indexes _ entry
    unfold IndexLayout.check at valid
    split at valid
    · cases valid
    · split at valid
      · cases valid
      · rename_i trees
        rw [not_and, not_not] at trees
        exact trees unique

theorem data_checked (checked : settings.Checked) (listed : layout ∈ settings.resources)
    (data : layout.isRegistry = false) : layout.Checked := by
  rcases checked_of_check (checked.layouts layout listed) with ⟨registry, _⟩ | ⟨_, valid⟩
  · rw [data] at registry
    cases registry
  · exact valid

theorem registry_indexes (checked : settings.Checked) (listed : layout ∈ settings.resources)
    (registry : layout.isRegistry = true) : layout.indexes = [] := by
  have valid := checked.layouts layout listed
  rw [ResourceLayout.check, if_pos registry] at valid
  split at valid
  · cases valid
  · rename_i fixed
    simp only [not_or, not_not] at fixed
    exact fixed.2.2.2.2.1

end Fields

/-! ## What a resource's indexes are on -/

section Indexes

variable {settings : PostgreSQLSettings} {layout : ResourceLayout}

theorem declaredIndexes_cases {entry : String × Index}
    (listed : entry ∈ declaredIndexes settings layout) : ∃ index ∈ layout.indexes,
      entry.1 = indexName layout index ∧ indexDefinition settings layout index = some entry.2 := by
  obtain ⟨index, inside, made⟩ := List.mem_filterMap.mp listed
  obtain ⟨definition, defined, rfl⟩ := Option.map_eq_some_iff.mp made
  exact ⟨index, inside, rfl, defined⟩

theorem mem_declaredIndexes {index : IndexLayout} {definition : Index}
    (listed : index ∈ layout.indexes)
    (defined : indexDefinition settings layout index = some definition) :
    (indexName layout index, definition) ∈ declaredIndexes settings layout :=
  List.mem_filterMap.mpr ⟨index, listed, by rw [defined, Option.map_some]⟩

/-- An index is on its layout's table, on scope columns and columns of its
fields. -/
theorem indexDefinition_cases {index : IndexLayout} {definition : Index}
    (defined : indexDefinition settings layout index = some definition) :
    definition.table = layout.table.text ∧
      definition.columns ⊆ settings.scopeColumns ++ fieldColumns layout index.fields ∧
      (definition.method = .hash ↔ index.kind = .hash) ∧
      (index.kind = .hash → definition.columns = fieldColumns layout index.fields) := by
  unfold indexDefinition at defined
  dsimp only at defined
  cases kind : index.kind with
  | relationEndpoint =>
      rw [kind] at defined
      cases defined
  | geospatial =>
      rw [kind] at defined
      cases defined
      exact ⟨rfl, List.Subset.trans (List.take_subset _ _) (List.subset_append_right _ _), by simp, by simp⟩
  | fullText =>
      rw [kind] at defined
      cases defined
      exact ⟨rfl, List.Subset.trans (List.take_subset _ _) (List.subset_append_right _ _), by simp, by simp⟩
  | hash =>
      rw [kind] at defined
      cases defined
      exact ⟨rfl, List.subset_append_right _ _, by simp, fun _ => rfl⟩
  | btree =>
      rw [kind] at defined
      cases defined
      exact ⟨rfl, List.Subset.refl _, by simp, by simp⟩
  | timeSeries =>
      rw [kind] at defined
      cases defined
      exact ⟨rfl, List.Subset.refl _, by simp, by simp⟩

/-- Only indexes that are declared unique are made so. -/
theorem indexDefinition_unique {index : IndexLayout} {definition : Index}
    (defined : indexDefinition settings layout index = some definition)
    (unique : definition.unique = true) : index.unique = true := by
  unfold indexDefinition at defined
  dsimp only at defined
  split at defined
  · cases defined
  · cases defined
    cases unique
  · cases defined
    cases unique
  · cases defined
    exact unique
  · cases defined
    exact unique
  · cases defined
    exact unique

theorem indexDefinition_isSome (settings : PostgreSQLSettings) {index : IndexLayout} :
    (indexDefinition settings layout index).isSome = true ↔ index.kind ≠ .relationEndpoint := by
  unfold indexDefinition
  cases index.kind <;> simp

theorem endpointIndexes_cases {entry : String × Index}
    (listed : entry ∈ endpointIndexes settings layout) : layout.relation.isSome = true ∧
      entry.1 ∈ [endpointName layout "source", endpointName layout "target"] ∧
      entry.2.table = layout.table.text ∧ entry.2.method = .btree ∧
      entry.2.columns ⊆ settings.scopeColumns ++ filledNames layout := by
  unfold endpointIndexes at listed
  split at listed
  · rename_i related
    have generated : ["__source_collection", "__source_record_id"] ⊆ filledNames layout ∧
        ["__target_collection", "__target_record_id"] ⊆ filledNames layout := by
      rw [filledNames, relationGeneratedColumns, if_pos related]
      decide
    have widened := fun {names : List String} (inside : names ⊆ filledNames layout) =>
      List.append_subset.mpr ⟨List.subset_append_left settings.scopeColumns _,
        List.Subset.trans inside (List.subset_append_right _ _)⟩
    rcases List.mem_cons.mp listed with rfl | last
    · exact ⟨related, List.mem_cons_self, rfl, rfl, widened generated.1⟩
    · rw [List.mem_singleton.mp last]
      exact ⟨related, List.mem_cons_of_mem _ List.mem_cons_self, rfl, rfl, widened generated.2⟩
  · cases listed

end Indexes

/-! ## Compiled plans -/

section Compiled

variable {digests : Digests} {settings : PostgreSQLSettings} {layout : ResourceLayout}
  {plan : MigrationPlan} {earlier : List Statement} {statements : List PlanStatement}

theorem ordered_flatten {chunks : List (List PlanStatement)}
    (each : ∀ chunk ∈ chunks, ∀ earlier, Ordered earlier chunk) :
    Ordered earlier chunks.flatten := by
  induction chunks generalizing earlier with
  | nil => trivial
  | cons chunk rest induction =>
      rw [List.flatten_cons]
      apply (each chunk List.mem_cons_self earlier).append
      exact induction fun other listed => each other (List.mem_cons_of_mem _ listed)

/-- A statement of the adapter's own makes one of its tables, if any. -/
def Own : Statement → Prop
  | .createTable name _ _ => name ∈ ResourceLayout.reservedTables
  | .elsewhere _ => True
  | _ => False

theorem planned_own {statements : List Statement} (own : ∀ statement ∈ statements, Own statement)
    {name : String} {index : Index} (listed : (name, .index index) ∈ planned statements) :
    index.table ∈ ResourceLayout.reservedTables := by
  obtain ⟨statement, inside, asked⟩ := List.mem_flatMap.mp listed
  have reserved := own statement inside
  cases statement with
  | createTable table columns primary =>
      rcases List.mem_cons.mp asked with impossible | key
      · cases impossible
      · cases List.mem_singleton.mp key
        exact reserved
  | createIndex other definition => cases reserved
  | addColumn table column defaulted => cases reserved
  | elsewhere text => cases asked

theorem own_table {name : String} {columns : List Column} {primary : List String}
    (reserved : name ∈ ResourceLayout.reservedTables) (distinct : (columns.map Column.name).Nodup)
    (contained : primary ⊆ columns.map Column.name) (fit : ∀ column ∈ columns, Fits column.name) :
    Own (.createTable name columns primary) ∧
      Statement.Follows [] (.createTable name columns primary) :=
  ⟨reserved, distinct, contained, fit⟩

theorem adapterStatements_own :
    ∀ statement ∈ adapterStatements settings, Own statement ∧ statement.Follows [] := by
  intro statement listed
  unfold adapterStatements at listed
  simp only [List.mem_append] at listed
  rcases listed with (first | replay) | outbox
  · simp only [List.mem_cons, List.not_mem_nil, or_false] at first
    rcases first with rfl | rfl | rfl | rfl
    · exact ⟨trivial, trivial⟩
    · exact ⟨trivial, trivial⟩
    · exact own_table (by decide) (by decide) (by decide) (by decide)
    · exact own_table (by decide) (by decide) (by decide) (by decide)
  · split at replay
    · rw [List.mem_singleton.mp replay]
      exact own_table (by decide) (by decide) (by decide) (by decide)
    · cases replay
  · split at outbox
    · simp only [outboxTables, List.mem_cons, List.not_mem_nil, or_false] at outbox
      rcases outbox with rfl | rfl
      · exact own_table (by decide) (by decide) (by decide) (by decide)
      · exact own_table (by decide) (by decide) (by decide) (by decide)
    · cases outbox

theorem registryTables_own {name : String} :
    ∀ statement ∈ registryTables name, Own statement ∧ statement.Follows [] := by
  intro statement listed
  simp only [registryTables, List.mem_cons, List.not_mem_nil, or_false] at listed
  rcases listed with rfl | rfl | rfl
  · exact ⟨trivial, trivial⟩
  · exact own_table (by decide) (by decide) (by decide) (by decide)
  · exact own_table (by decide) (by decide) (by decide) (by decide)

theorem registryStatements_ordered {name format fingerprint : String} :
    Ordered earlier ((registryTables name).map .ddl ++ [PlanStatement.marker format fingerprint]) := by
  apply Ordered.append
  · apply ordered_of_prepared
    intro statement listed
    obtain ⟨ddl, inside, rfl⟩ := List.mem_map.mp listed
    exact (registryTables_own ddl inside).2.mono (List.nil_subset _)
  · rw [requested_ddl]
    refine ⟨⟨registryMigrationColumns, ["singleton"], ?_⟩, trivial⟩
    exact List.mem_append_right _ (List.mem_cons_of_mem _ List.mem_cons_self)

/-- The columns of a resource table, when those of the scope fit. -/
theorem columnDefinitions_fit (scope : ∀ column ∈ settings.scopeColumns, Fits column)
    {columns : List (Column × Bool)} (defined : columnDefinitions settings layout = .ok columns) :
    ∀ column ∈ columns.map Prod.fst, Fits column.name := by
  have filled : ∀ name ∈ filledNames layout, Fits name := by
    intro name listed
    have short : ∀ name ∈ ResourceLayout.reservedColumns, Fits name := by decide
    exact short name (filledNames_reserved name listed).1
  intro column listed
  have named := List.mem_map_of_mem (f := Column.name) listed
  rw [columnDefinitions_names defined] at named
  rcases List.mem_append.mp named with given | generated
  · rcases List.mem_append.mp given with key | field
    · exact scope _ key
    · obtain ⟨declared, _, same⟩ := List.mem_map.mp field
      exact same ▸ identifier_fits declared.column
  · exact filled _ generated

theorem primaryColumns_subset {columns : List (Column × Bool)}
    (defined : columnDefinitions settings layout = .ok columns) :
    primaryColumns settings layout ⊆ (columns.map Prod.fst).map Column.name := by
  rw [columnDefinitions_names defined, primaryColumns]
  apply List.Subset.trans _ (List.subset_append_left _ _)
  apply List.append_subset.mpr ⟨List.subset_append_left _ _, _⟩
  exact List.Subset.trans (fieldColumns_subset _) (List.subset_append_right _ _)

theorem index_follows {columns : List (Column × Bool)} (valid : layout.Checked)
    (defined : columnDefinitions settings layout = .ok columns)
    (hashes : ∀ index ∈ layout.indexes, index.kind = .hash → index.fields.length = 1)
    (created : .createTable layout.table.text (columns.map Prod.fst)
      (primaryColumns settings layout) ∈ earlier) {entry : String × Index}
    (listed : entry ∈ declaredIndexes settings layout ++ endpointIndexes settings layout) :
    Statement.Follows earlier (.createIndex entry.1 entry.2) := by
  have names := columnDefinitions_names defined
  rcases List.mem_append.mp listed with declared | endpoint
  · obtain ⟨index, inside, _, definition⟩ := declaredIndexes_cases declared
    obtain ⟨table, contained, hash, exactly⟩ := indexDefinition_cases definition
    refine ⟨⟨columns.map Prod.fst, primaryColumns settings layout, table ▸ created, ?_⟩, ?_⟩
    · rw [names]
      apply List.Subset.trans contained (List.Subset.trans _ (List.subset_append_left _ _))
      apply List.append_subset.mpr ⟨List.subset_append_left _ _, _⟩
      exact List.Subset.trans (fieldColumns_subset _) (List.subset_append_right _ _)
    · intro method
      rw [exactly (hash.mp method), fieldColumns_length (index_checked valid inside).1]
      exact hashes index inside (hash.mp method)
  · obtain ⟨_, _, table, method, contained⟩ := endpointIndexes_cases endpoint
    refine ⟨⟨columns.map Prod.fst, primaryColumns settings layout, table ▸ created, ?_⟩, ?_⟩
    · rw [names]
      apply List.Subset.trans contained (List.append_subset.mpr
        ⟨_, List.subset_append_right _ _⟩)
      exact List.Subset.trans (List.subset_append_left _ _) (List.subset_append_left _ _)
    · intro hash
      rw [method] at hash
      cases hash

theorem resourceStatements_ordered {columns : List (Column × Bool)} (valid : layout.Checked)
    (accepted : layout.check = .ok ()) (scopeKeys : settings.scopeKeys.Nodup)
    (scope : ∀ column ∈ settings.scopeColumns, Fits column)
    (hashes : ∀ index ∈ layout.indexes, index.kind = .hash → index.fields.length = 1)
    (defined : columnDefinitions settings layout = .ok columns) :
    Ordered earlier ((resourceStatements settings layout columns).map .ddl) := by
  unfold resourceStatements
  rw [List.cons_append, List.map_cons]
  refine ⟨⟨columnDefinitions_nodup scopeKeys accepted defined, primaryColumns_subset defined,
    columnDefinitions_fit scope defined⟩, ?_⟩
  have created := List.mem_append_right earlier (List.mem_singleton_self
    (Statement.createTable layout.table.text (columns.map Prod.fst)
      (primaryColumns settings layout)))
  apply ordered_of_prepared
  intro statement listed
  obtain ⟨ddl, inside, rfl⟩ := List.mem_map.mp listed
  rcases List.mem_append.mp inside with added | indexed
  · obtain ⟨column, member, rfl⟩ := List.mem_map.mp added
    exact ⟨_, _, created, List.mem_map_of_mem member⟩
  · obtain ⟨entry, member, rfl⟩ := List.mem_map.mp indexed
    exact index_follows valid defined hashes created member

theorem chunk_of_layout {resources : List ResourceLayout} {chunks : List (List PlanStatement)}
    (each : List.Forall₂ (fun layout statements =>
      layoutStatements digests settings layout = .ok statements) resources chunks)
    {chunk : List PlanStatement} (listed : chunk ∈ chunks) :
    ∃ layout ∈ resources, layoutStatements digests settings layout = .ok chunk := by
  induction each with
  | nil => cases listed
  | @cons layout statements rest chunks made _ induction =>
      rcases List.mem_cons.mp listed with rfl | later
      · exact ⟨layout, List.mem_cons_self, made⟩
      · obtain ⟨other, inside, found⟩ := induction later
        exact ⟨other, List.mem_cons_of_mem _ inside, found⟩

theorem compile_ordered (checked : settings.Checked) (compiled : compile digests settings = .ok plan)
    (scope : (∃ layout ∈ settings.resources, layout.isRegistry = false) →
      ∀ column ∈ settings.scopeColumns, Fits column)
    (hashes : ∀ layout ∈ settings.resources, layout.isRegistry = false →
      ∀ index ∈ layout.indexes, index.kind = .hash → index.fields.length = 1) :
    Ordered [] plan.statements := by
  obtain ⟨chunks, each, statements⟩ := compile_statements compiled
  rw [statements]
  apply Ordered.append
  · apply ordered_of_prepared
    intro statement listed
    obtain ⟨ddl, inside, rfl⟩ := List.mem_map.mp listed
    exact (adapterStatements_own ddl inside).2
  · apply ordered_flatten
    intro chunk listed before
    obtain ⟨layout, inside, made⟩ := chunk_of_layout each listed
    cases data : layout.isRegistry with
    | true =>
        rw [layoutStatements, if_pos data] at made
        cases made
        exact registryStatements_ordered
    | false =>
        obtain ⟨columns, defined, rfl⟩ := layoutStatements_resource data made
        exact resourceStatements_ordered (data_checked checked inside data)
          (checked.layouts layout inside) checked.scopeKeys (scope ⟨layout, inside, data⟩)
          (hashes layout inside data) defined

/-! ## What plans ask for -/

theorem resourceStatements_planned {columns : List (Column × Bool)} :
    planned (resourceStatements settings layout columns) =
      tableRelations settings layout (columns.map Prod.fst) := by
  have added : planned (columns.map fun column =>
      .addColumn layout.table.text column.1 column.2) = [] := by
    rw [planned, List.flatMap_map]
    exact List.flatMap_eq_nil_iff.mpr fun _ _ => rfl
  have indexed : ∀ indexes : List (String × Index),
      planned (indexes.map fun index => .createIndex index.1 index.2) =
        indexes.map fun index => (index.1, .index index.2) := by
    intro indexes
    rw [planned, List.flatMap_map, List.map_eq_flatMap]
    rfl
  unfold resourceStatements
  rw [List.cons_append, planned, List.flatMap_cons, ← planned, planned_append, added, indexed]
  rfl

theorem layoutStatements_planned (made : layoutStatements digests settings layout = .ok statements) :
    planned (statements.flatMap requested) = layoutRelations settings layout := by
  cases data : layout.isRegistry with
  | true =>
      rw [layoutStatements, if_pos data] at made
      cases made
      rw [List.flatMap_append, requested_ddl, layoutRelations, if_pos data, List.flatMap_singleton,
        requested, List.append_nil]
  | false =>
      obtain ⟨columns, defined, rfl⟩ := layoutStatements_resource data made
      rw [requested_ddl, resourceStatements_planned, layoutRelations, data, expectedColumns_eq,
        defined]
      rfl

theorem compile_planned (compiled : compile digests settings = .ok plan) :
    planned (plan.statements.flatMap requested) = declared settings := by
  obtain ⟨chunks, each, statements⟩ := compile_statements compiled
  rw [statements, List.flatMap_append, requested_ddl, planned_append, declared]
  congr 1
  clear statements
  generalize settings.resources = resources at each
  induction each with
  | nil => rfl
  | cons made _ induction =>
      rw [List.flatten_cons, List.flatMap_append, planned_append, layoutStatements_planned made,
        List.flatMap_cons, induction]

end Compiled

/-! ## Declared relations -/

section Declared

variable {settings : PostgreSQLSettings} {layout : ResourceLayout}

theorem mem_declared_layout (listed : layout ∈ settings.resources) {entry : String × Relation}
    (inside : entry ∈ layoutRelations settings layout) : entry ∈ declared settings :=
  List.mem_append_right _ (List.mem_flatMap.mpr ⟨layout, listed, inside⟩)

theorem mem_declared_adapter {statement : Statement}
    (listed : statement ∈ adapterStatements settings) {entry : String × Relation}
    (asked : entry ∈ statement.relations) : entry ∈ declared settings :=
  List.mem_append_left _ (mem_planned listed asked)

theorem layoutRelations_data (data : layout.isRegistry = false) {columns : List Column}
    (expected : expectedColumns settings layout = .ok columns) :
    layoutRelations settings layout = tableRelations settings layout columns := by
  rw [layoutRelations, data, expected]
  rfl

theorem mem_tableRelations_index {columns : List Column} {entry : String × Index}
    (listed : entry ∈ declaredIndexes settings layout ++ endpointIndexes settings layout) :
    (entry.1, .index entry.2) ∈ tableRelations settings layout columns :=
  List.mem_cons_of_mem _ (List.mem_cons_of_mem _ (List.mem_map_of_mem listed))

/-- The probe expects the key, the declared indexes and the generated ones. -/
theorem mem_expectedIndexes (settings : PostgreSQLSettings) {name : String} : name ∈ expectedIndexes layout ↔
    name = layout.table.text ++ "_pkey" ∨
      ∃ entry ∈ declaredIndexes settings layout ++ endpointIndexes settings layout,
        entry.1 = name := by
  have declaredNames : name ∈ ((layout.indexes.filter fun index =>
      index.kind ≠ .relationEndpoint).map fun index =>
        layout.table.text ++ "_" ++ index.name.text) ↔
      ∃ entry ∈ declaredIndexes settings layout, entry.1 = name := by
    constructor
    · intro listed
      obtain ⟨index, inside, rfl⟩ := List.mem_map.mp listed
      obtain ⟨member, kind⟩ := List.mem_filter.mp inside
      obtain ⟨definition, defined⟩ := Option.isSome_iff_exists.mp
        ((indexDefinition_isSome settings).mpr (by simpa using kind))
      exact ⟨_, mem_declaredIndexes member defined, rfl⟩
    · rintro ⟨entry, listed, rfl⟩
      obtain ⟨index, inside, named, defined⟩ := declaredIndexes_cases listed
      rw [named]
      refine List.mem_map.mpr ⟨index, List.mem_filter.mpr ⟨inside, ?_⟩, rfl⟩
      have kind := (indexDefinition_isSome settings).mp (Option.isSome_of_eq_some defined)
      simpa using kind
  have endpointNames : name ∈ (if layout.relation.isSome then
      [layout.table.text ++ "__source_endpoint", layout.table.text ++ "__target_endpoint"]
      else []) ↔ ∃ entry ∈ endpointIndexes settings layout, entry.1 = name := by
    unfold endpointIndexes
    split
    · simp [endpointName, eq_comm, String.append_assoc]
    · simp
  unfold expectedIndexes
  rw [List.cons_append, List.mem_cons, List.mem_append, declaredNames, endpointNames]
  simp only [List.mem_append, or_and_right, exists_or]

/-- An index that settings declare for a resource's table is the resource's. -/
theorem index_of_declared (checked : settings.Checked) (listed : layout ∈ settings.resources)
    (data : layout.isRegistry = false) {columns : List Column}
    (expected : expectedColumns settings layout = .ok columns) {name : String} {index : Index}
    (inside : (name, .index index) ∈ declared settings) (table : index.table = layout.table.text) :
    (name, .index index) ∈ tableRelations settings layout columns := by
  have free := table_free checked listed data
  rcases List.mem_append.mp inside with adapter | resources
  · have reserved := planned_own (fun statement member =>
      (adapterStatements_own statement member).1) adapter
    exact absurd (table ▸ reserved) free
  · obtain ⟨other, member, asked⟩ := List.mem_flatMap.mp resources
    cases kind : other.isRegistry with
    | true =>
        rw [layoutRelations, if_pos kind] at asked
        have reserved := planned_own (fun statement member =>
          (registryTables_own statement member).1) asked
        exact absurd (table ▸ reserved) free
    | false =>
        have own : index.table = other.table.text := by
          simp only [layoutRelations, kind, Bool.false_eq_true, if_false] at asked
          split at asked
          · cases asked
          · unfold tableRelations at asked
            rcases List.mem_cons.mp asked with impossible | asked
            · cases impossible
            · rcases List.mem_cons.mp asked with key | asked
              · cases key
                rfl
              · obtain ⟨entry, made, same⟩ := List.mem_map.mp asked
                cases same
                rcases List.mem_append.mp made with declared | endpoint
                · obtain ⟨_, _, _, defined⟩ := declaredIndexes_cases declared
                  exact (indexDefinition_cases defined).1
                · exact (endpointIndexes_cases endpoint).2.2.1
        have same := table_unique checked.tables member listed
          (Identifier.ext (own.symm.trans table))
        subst same
        rw [← layoutRelations_data data expected]
        exact asked

end Declared

/-! ## Running a plan in order -/

/-- The server has no reason of its own to refuse a statement. -/
def Accepts (server : Server) : Database → List PlanStatement → Prop
  | _, [] => True
  | database, statement :: rest =>
      (∀ ddl, statement = .ddl ddl → server.refuses database.catalog ddl = false) ∧
        ∀ next, runStatement server database statement = .ok next → Accepts server next rest

section Running

variable {server : Server} {database : Database} {earlier : List Statement}
  {statements : List PlanStatement}

theorem columnsOf_of_reflects (reflects : database.catalog.Reflects earlier) {name : String}
    {columns : List Column} {primary : List String}
    (created : .createTable name columns primary ∈ earlier) :
    database.catalog.columnsOf name = some columns :=
  Catalog.columnsOf_eq (reflects.table created)

theorem runStatement_reflects (reflects : database.catalog.Reflects earlier)
    {statement : PlanStatement} (prepared : Prepared earlier statement)
    (consistent : Consistent (planned (earlier ++ requested statement)))
    (fit : ∀ entry ∈ planned (requested statement), Fits entry.1)
    (accepted : ∀ ddl, statement = .ddl ddl → server.refuses database.catalog ddl = false) :
    ∃ next, runStatement server database statement = .ok next ∧
      next.catalog.Reflects (earlier ++ requested statement) := by
  cases statement with
  | ddl ddl =>
      rw [requested, planned, List.flatMap_singleton] at fit
      obtain ⟨catalog, performed, after⟩ := reflects.step prepared consistent fit
      have executed : database.catalog.execute server.refuses ddl = some catalog := by
        rw [Catalog.execute, accepted ddl rfl]
        exact performed
      refine ⟨{ database with catalog := catalog }, ?_, after⟩
      rw [runStatement, executed]
  | marker format fingerprint =>
      obtain ⟨columns, primary, created⟩ := prepared
      have present := columnsOf_of_reflects reflects created
      refine ⟨{ database with marker := database.marker.or (some (format, fingerprint)) }, ?_, ?_⟩
      · rw [runStatement, present]
        exact if_neg (Option.some_ne_none columns)
      · rw [requested, List.append_nil]
        exact reflects

/-- Statements in order, whose names fit and are asked for one relation each,
leave all that they ask for. -/
theorem runStatements_reflects (reflects : database.catalog.Reflects earlier)
    (ordered : Ordered earlier statements)
    (consistent : Consistent (planned (earlier ++ statements.flatMap requested)))
    (fit : ∀ entry ∈ planned (statements.flatMap requested), Fits entry.1)
    (accepted : Accepts server database statements) :
    ∃ next, runStatements server database statements = .ok next ∧
      next.catalog.Reflects (earlier ++ statements.flatMap requested) := by
  induction statements generalizing database earlier with
  | nil => exact ⟨database, rfl, by simpa using reflects⟩
  | cons statement rest induction =>
      rw [List.flatMap_cons] at consistent fit
      have whole : earlier ++ (requested statement ++ rest.flatMap requested) =
          earlier ++ requested statement ++ rest.flatMap requested :=
        (List.append_assoc _ _ _).symm
      have part : planned (earlier ++ requested statement) ⊆
          planned (earlier ++ (requested statement ++ rest.flatMap requested)) := by
        rw [whole, planned_append _ (rest.flatMap requested)]
        exact List.subset_append_left _ _
      rw [planned_append] at fit
      obtain ⟨middle, ran, after⟩ := runStatement_reflects reflects ordered.1
        (consistent.mono part) (fun entry listed => fit entry (List.mem_append_left _ listed))
        accepted.1
      rw [whole] at consistent
      obtain ⟨next, remaining, done⟩ := induction after ordered.2 consistent
        (fun entry listed => fit entry (List.mem_append_right _ listed)) (accepted.2 middle ran)
      refine ⟨next, ?_, ?_⟩
      · rw [runStatements, ran]
        exact remaining
      · rw [List.flatMap_cons, whole]
        exact done

/-- The marker that a plan leaves, when all of its markers are one. -/
theorem runStatements_marker {next : Database} {marker : String × String}
    (ran : runStatements server database statements = .ok next)
    (single : ∀ format fingerprint, .marker format fingerprint ∈ statements →
      (format, fingerprint) = marker)
    (held : database.marker = some marker ∨
      database.marker = none ∧ .marker marker.1 marker.2 ∈ statements) :
    next.marker = some marker := by
  induction statements generalizing database with
  | nil =>
      cases ran
      rcases held with held | ⟨_, impossible⟩
      · exact held
      · cases impossible
  | cons statement rest induction =>
      obtain ⟨middle, head, tail⟩ := runStatements_cons ran
      have later := fun format fingerprint listed =>
        single format fingerprint (List.mem_cons_of_mem statement listed)
      apply induction tail later
      cases statement with
      | ddl ddl =>
          have same : middle.marker = database.marker := by
            unfold runStatement at head
            dsimp only at head
            split at head
            · cases head
              rfl
            · cases head
          rw [same]
          rcases held with held | ⟨free, listed⟩
          · exact .inl held
          · rcases List.mem_cons.mp listed with impossible | inside
            · cases impossible
            · exact .inr ⟨free, inside⟩
      | marker format fingerprint =>
          left
          have named := single format fingerprint List.mem_cons_self
          have result : middle.marker = database.marker.or (some (format, fingerprint)) := by
            unfold runStatement at head
            dsimp only at head
            split at head
            · cases head
            · cases head
              rfl
          rw [result, named]
          rcases held with held | ⟨held, _⟩
          · rw [held, Option.some_or]
          · rw [held, Option.none_or]

/-- Each statement of a plan that runs has run. -/
theorem runStatements_each {next : Database} {statement : PlanStatement}
    (ran : runStatements server database statements = .ok next) (listed : statement ∈ statements) :
    ∃ before after, runStatement server before statement = .ok after := by
  induction statements generalizing database with
  | nil => cases listed
  | cons first rest induction =>
      obtain ⟨middle, head, tail⟩ := runStatements_cons ran
      rcases List.mem_cons.mp listed with rfl | later
      · exact ⟨database, middle, head⟩
      · exact induction tail later

theorem accepts_of_ran {next : Database}
    (ran : runStatements server database statements = .ok next) :
    Accepts server database statements := by
  induction statements generalizing database with
  | nil => trivial
  | cons statement rest induction =>
      obtain ⟨middle, head, tail⟩ := runStatements_cons ran
      constructor
      · rintro ddl rfl
        exact (Catalog.execute_performs (runStatement_ddl head)).1
      · intro other same
        rw [head] at same
        cases same
        exact induction tail

end Running

end MeridianPostgreSQL.Migration
