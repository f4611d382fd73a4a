import MeridianPostgreSQL.Query.DmlAlignment
import MeridianPostgreSQL.Query.OutputNames
import MeridianPostgreSQL.Query.PlanText
import MeridianPostgreSQL.Settings.CheckedLayouts

/-! # Keys of a result

The names that statements give to their columns come from the schema, from the
caller, from the metadata of the adapter and from its numbering. When do they
keep apart? -/

namespace MeridianPostgreSQL.Query

open Settings

/-! ## Columns of statements -/

/-- The columns of a record that is returned as it is. -/
def recordNames (layout : ResourceLayout) : List OutputColumn :=
  (layout.fields.map fun field => (field.name, true)) ++
    (metadataColumns layout).map fun column => (column.2, false)

/-- The caller gives the projected column a name. -/
def Projection.isNamed (projection : Projection) : Bool :=
  match projection.resultAlias with
  | some name => name ≠ ""
  | none => false

namespace QueryOperation

variable (operation : QueryOperation)

/-- The number of keys that a query is sorted by. -/
def orderCount (layout : ResourceLayout) : Nat :=
  operation.order.length + (layout.identity.filter fun name =>
    name ∉ operation.order.filterMap (PostgreSQLQueryTranslator.represented layout)).length

def internalNames (layout : ResourceLayout) : List String :=
  if operation.kind = .aggregate then [] else numbered "__cursor_" (operation.orderCount layout)

/-- The names under which projected expressions are returned. -/
def projectedNames : List OutputColumn :=
  operation.projection.zipIdx.map fun projection =>
    (projection.1.selectedAlias projection.2, projection.1.isNamed)

def groupNames : List String := numbered "group_" operation.grouping.length

/-- The columns that a query selects. -/
def columns (layout : ResourceLayout) : List OutputColumn :=
  if operation.kind = .aggregate then
    operation.groupNames.map (·, false) ++
      operation.aggregates.map fun aggregate => (aggregate.name, true)
  else
    (if operation.projection.isEmpty then recordNames layout else operation.projectedNames) ++
      (operation.internalNames layout).map (·, false)

end QueryOperation

/-! ## When names keep apart -/

/-- No field takes a name that the adapter uses or that the server cuts. -/
def FieldsApart (layout : ResourceLayout) (internal : List String) : Prop :=
  ∀ field ∈ layout.fields, Unclipped field.name ∧ field.name ≠ "recordVersion" ∧
    field.name ∉ internal

instance (layout : ResourceLayout) (internal : List String) :
    Decidable (FieldsApart layout internal) :=
  inferInstanceAs (Decidable (∀ field ∈ layout.fields, _))

namespace QueryOperation

variable (operation : QueryOperation)

structure AggregatesApart : Prop where
  names : (operation.aggregates.map NamedAggregate.name).Nodup
  whole : ∀ aggregate ∈ operation.aggregates, Unclipped aggregate.name
  groups : ∀ aggregate ∈ operation.aggregates, aggregate.name ∉ operation.groupNames
  wholeGroups : ∀ name ∈ operation.groupNames, Unclipped name

structure ProjectionsApart (internal : List String) : Prop where
  names : (outputNames operation.projectedNames).Nodup
  requested : ∀ name, (name, true) ∈ operation.projectedNames → Unclipped name ∧ name ∉ internal

/-- The names of the schema, of the caller and of the adapter do not meet. -/
def NamesApart (layout : ResourceLayout) : Prop :=
  if operation.kind = .aggregate then operation.AggregatesApart
  else
    (if operation.projection.isEmpty then FieldsApart layout (operation.internalNames layout)
      else operation.ProjectionsApart (operation.internalNames layout)) ∧
    ∀ name ∈ operation.internalNames layout, Unclipped name

end QueryOperation

theorem outputNames_append (columns others : List OutputColumn) :
    outputNames (columns ++ others) = outputNames columns ++ outputNames others :=
  List.map_append

theorem outputNames_plain (names : List String) :
    outputNames (names.map (·, false)) = names.map outputName := by
  simp [outputNames]

theorem outputNames_whole {columns : List OutputColumn}
    (whole : ∀ column ∈ columns, Unclipped column.1) :
    outputNames columns = columns.map Prod.fst :=
  List.map_congr_left fun column listed => outputName_unclipped (whole column listed)

/-! ## Records -/

section Records

variable {layout : ResourceLayout}

theorem metadata_unclipped : ∀ column ∈ metadataColumns layout, Unclipped column.2 := by
  intro column listed
  have known := (List.mem_filter.mp listed).1
  simp only [List.mem_cons, List.not_mem_nil, or_false] at known
  rcases known with rfl | rfl | rfl <;> decide

theorem recordVersion_listed : ("__record_version", "recordVersion") ∈ metadataColumns layout := by
  apply List.mem_filter.mpr
  exact ⟨List.mem_cons_self, by simp⟩

/-- A timestamp that the schema declares is not returned twice. -/
theorem metadata_new {column : String × String} (listed : column ∈ metadataColumns layout)
    (version : "recordVersion" ∉ layout.fieldNames) : column.2 ∉ layout.fieldNames := by
  obtain ⟨known, kept⟩ := List.mem_filter.mp listed
  simp only [List.mem_cons, List.not_mem_nil, or_false] at known
  rcases known with rfl | rfl | rfl
  · exact version
  · simpa using kept
  · simpa using kept

theorem metadata_nodup : ((metadataColumns layout).map Prod.snd).Nodup :=
  (List.filter_sublist.map Prod.snd).nodup (by decide)

theorem recordNames_fst : (recordNames layout).map Prod.fst =
    layout.fieldNames ++ (metadataColumns layout).map Prod.snd := by
  rw [recordNames, List.map_append, List.map_map, List.map_map]
  rfl

theorem recordNames_requested {name : String} :
    (name, true) ∈ recordNames layout ↔ name ∈ layout.fieldNames := by
  simp [recordNames, ResourceLayout.fieldNames]

theorem recordNames_nodup (names : layout.fieldNames.Nodup)
    (version : "recordVersion" ∉ layout.fieldNames) :
    ((recordNames layout).map Prod.fst).Nodup := by
  rw [recordNames_fst]
  refine names.append metadata_nodup ?_
  intro name declared listed
  obtain ⟨column, member, rfl⟩ := List.mem_map.mp listed
  exact metadata_new member version declared

/-- A record returned as it is, with numbered columns after it. -/
theorem records_owned_iff (names : layout.fieldNames.Nodup) {internal : List String}
    (numberedApart : (internal.map outputName).Nodup ↔ ∀ name ∈ internal, Unclipped name)
    (foreign : ∀ column ∈ metadataColumns layout, column.2 ∉ internal) :
    KeysOwned (recordNames layout ++ internal.map (·, false)) internal ↔
      FieldsApart layout internal ∧ ∀ name ∈ internal, Unclipped name := by
  rw [keysOwned_iff, outputNames_append, outputNames_plain]
  have requested : ∀ name, (name, true) ∈ recordNames layout ++ internal.map (·, false) ↔
      name ∈ layout.fieldNames := by
    intro name
    simp [recordNames_requested]
  constructor
  · rintro ⟨distinct, kept⟩
    obtain ⟨record, cursors, _⟩ := List.nodup_append.mp distinct
    refine ⟨?_, numberedApart.mp cursors⟩
    intro field listed
    have declared : field.name ∈ layout.fieldNames := List.mem_map_of_mem listed
    obtain ⟨whole, hidden⟩ := kept field.name ((requested _).mpr declared)
    refine ⟨whole, ?_, hidden⟩
    intro same
    rw [recordNames, outputNames_append] at record
    have apart := (List.nodup_append.mp record).2.2
    apply apart (outputName field.name) _ (outputName "recordVersion") _ (by rw [same])
    · exact List.mem_map.mpr ⟨(field.name, true), List.mem_map.mpr ⟨field, listed, rfl⟩, rfl⟩
    · exact List.mem_map.mpr ⟨("recordVersion", false),
        List.mem_map.mpr ⟨_, recordVersion_listed, rfl⟩, rfl⟩
  · rintro ⟨apart, whole⟩
    have fields : ∀ name ∈ layout.fieldNames, Unclipped name ∧ name ≠ "recordVersion" ∧
        name ∉ internal := by
      intro name declared
      obtain ⟨field, listed, rfl⟩ := List.mem_map.mp declared
      exact apart field listed
    have unclipped : ∀ column ∈ recordNames layout, Unclipped column.1 := by
      intro column listed
      rcases List.mem_append.mp listed with inside | inside
      · obtain ⟨field, declared, rfl⟩ := List.mem_map.mp inside
        exact (apart field declared).1
      · obtain ⟨metadata, declared, rfl⟩ := List.mem_map.mp inside
        exact metadata_unclipped metadata declared
    refine ⟨?_, fun name listed => ?_⟩
    · rw [outputNames_whole unclipped]
      have cursors : internal.map outputName = internal := by
        conv_rhs => rw [← List.map_id internal]
        exact List.map_congr_left fun name listed => outputName_unclipped (whole name listed)
      refine (recordNames_nodup names fun declared => (fields _ declared).2.1 rfl).append
        (numberedApart.mpr whole) ?_
      intro name listed inside
      rw [cursors] at inside
      rw [recordNames_fst] at listed
      rcases List.mem_append.mp listed with declared | metadata
      · exact (fields name declared).2.2 inside
      · obtain ⟨column, member, rfl⟩ := List.mem_map.mp metadata
        exact foreign column member inside
    · obtain ⟨unclipped, _, hidden⟩ := fields name ((requested name).mp listed)
      exact ⟨unclipped, hidden⟩

end Records

/-! ## Projections and aggregates -/

theorem head?_outputName (name : String) :
    (outputName name).toList.head? = name.toList.head? := by
  rw [outputName, String.toList_ofList]
  cases name.toList with
  | nil => rfl
  | cons character rest =>
      have small := character.utf8Size_le_four
      rw [clip, if_pos (small.trans (by decide))]
      rfl

/-- A name that the adapter numbers a projection with is no cursor's. -/
theorem outputName_value_ne (index position : Nat) :
    outputName s!"value_{index}" ≠ outputName s!"__cursor_{position}" := by
  intro same
  change outputName ("value_" ++ toString index) = outputName ("__cursor_" ++ toString position)
    at same
  have heads := congrArg (fun name => name.toList.head?) same
  rw [head?_outputName, head?_outputName] at heads
  simp [String.toList_append] at heads

namespace QueryOperation

variable {operation : QueryOperation}

theorem projectedNames_generated {name : String}
    (listed : (name, false) ∈ operation.projectedNames) : ∃ index : Nat, name = s!"value_{index}" := by
  obtain ⟨⟨projection, index⟩, _, same⟩ := List.mem_map.mp listed
  obtain ⟨rfl, unnamed⟩ := Prod.mk.inj same
  refine ⟨index, ?_⟩
  unfold Projection.isNamed at unnamed
  unfold Projection.selectedAlias
  cases held : projection.resultAlias with
  | none => rfl
  | some name =>
      rw [held] at unnamed
      have empty : name = "" := by simpa using unnamed
      simp [empty]

theorem projections_owned_iff (count : Nat) :
    KeysOwned (operation.projectedNames ++ (numbered "__cursor_" count).map (·, false))
        (numbered "__cursor_" count) ↔
      operation.ProjectionsApart (numbered "__cursor_" count) ∧
        ∀ name ∈ numbered "__cursor_" count, Unclipped name := by
  have short : encodedSize "__cursor_".toList < nameBytes := by decide
  rw [keysOwned_iff, outputNames_append, outputNames_plain]
  have requested : ∀ name,
      (name, true) ∈ operation.projectedNames ++ (numbered "__cursor_" count).map (·, false) ↔
        (name, true) ∈ operation.projectedNames := by
    simp
  simp only [requested]
  constructor
  · rintro ⟨distinct, kept⟩
    obtain ⟨names, cursors, _⟩ := List.nodup_append.mp distinct
    exact ⟨⟨names, kept⟩, (numbered_apart_iff short count).mp cursors⟩
  · rintro ⟨⟨names, kept⟩, whole⟩
    refine ⟨names.append ((numbered_apart_iff short count).mpr whole) ?_, kept⟩
    intro name listed inside
    obtain ⟨cursor, member, rfl⟩ := List.mem_map.mp inside
    obtain ⟨⟨column, isNamed⟩, projected, same⟩ := List.mem_map.mp listed
    cases isNamed with
    | true =>
        obtain ⟨unclipped, hidden⟩ := kept column projected
        have equal : column = cursor := by
          rw [← outputName_unclipped unclipped, ← outputName_unclipped (whole cursor member)]
          exact same
        exact hidden (equal ▸ member)
    | false =>
        obtain ⟨index, rfl⟩ := projectedNames_generated projected
        obtain ⟨position, _, rfl⟩ := mem_numbered.mp member
        exact outputName_value_ne index position same

theorem aggregates_owned_iff :
    KeysOwned (operation.groupNames.map (·, false) ++
        operation.aggregates.map fun aggregate => (aggregate.name, true)) [] ↔
      operation.AggregatesApart := by
  have short : encodedSize "group_".toList < nameBytes := by decide
  have groups := numbered_apart_iff short operation.grouping.length
  have named : ∀ {names : List NamedAggregate}, (∀ aggregate ∈ names, Unclipped aggregate.name) →
      outputNames (names.map fun aggregate => (aggregate.name, true)) =
        names.map NamedAggregate.name := by
    intro names whole
    rw [outputNames, List.map_map]
    exact List.map_congr_left fun aggregate listed => outputName_unclipped (whole aggregate listed)
  rw [keysOwned_iff, outputNames_append, outputNames_plain]
  constructor
  · rintro ⟨distinct, kept⟩
    have whole : ∀ aggregate ∈ operation.aggregates, Unclipped aggregate.name := by
      intro aggregate listed
      exact (kept aggregate.name (List.mem_append_right _
        (List.mem_map.mpr ⟨aggregate, listed, rfl⟩))).1
    rw [named whole] at distinct
    obtain ⟨numbers, names, apart⟩ := List.nodup_append.mp distinct
    have wholeGroups := groups.mp numbers
    refine ⟨names, whole, ?_, wholeGroups⟩
    intro aggregate listed member
    exact apart _ (List.mem_map.mpr ⟨_, member, outputName_unclipped (wholeGroups _ member)⟩) _
      (List.mem_map_of_mem listed) rfl
  · intro apart
    rw [named apart.whole]
    refine ⟨(groups.mpr apart.wholeGroups).append apart.names ?_, ?_⟩
    · intro name inside listed
      obtain ⟨group, member, rfl⟩ := List.mem_map.mp inside
      rw [outputName_unclipped (apart.wholeGroups group member)] at listed
      obtain ⟨aggregate, present, rfl⟩ := List.mem_map.mp listed
      exact apart.groups aggregate present member
    · intro name listed
      have known : (name, true) ∈ operation.aggregates.map fun aggregate =>
          (aggregate.name, true) := by simpa using listed
      obtain ⟨aggregate, present, same⟩ := List.mem_map.mp known
      cases same
      exact ⟨apart.whole aggregate present, List.not_mem_nil⟩

/-- The columns of a query keep their names exactly when those names keep apart. -/
theorem columns_owned_iff {layout : ResourceLayout} (names : layout.fieldNames.Nodup) :
    KeysOwned (operation.columns layout) (operation.internalNames layout) ↔
      operation.NamesApart layout := by
  unfold columns NamesApart internalNames
  by_cases kind : operation.kind = .aggregate
  · rw [if_pos kind, if_pos kind, if_pos kind]
    exact aggregates_owned_iff
  · rw [if_neg kind, if_neg kind, if_neg kind]
    by_cases empty : operation.projection.isEmpty = true
    · rw [if_pos empty, if_pos empty]
      refine records_owned_iff names (numbered_apart_iff (by decide) _) ?_
      intro column listed inside
      obtain ⟨position, _, same⟩ := mem_numbered.mp inside
      have known := (List.mem_filter.mp listed).1
      have heads := congrArg (fun name => name.toList.head?) same
      simp only [List.mem_cons, List.not_mem_nil, or_false] at known
      rcases known with rfl | rfl | rfl <;> simp [String.toList_append] at heads
    · rw [if_neg empty, if_neg empty]
      exact projections_owned_iff _

end QueryOperation

/-! ## Select lists -/

/-- The columns of a select list under their names. -/
abbrev Aliases (columns : List QueryStatement) (names : List String) : Prop :=
  List.Forall₂ (fun column name => ∃ statement, column = aliased statement name) columns names

theorem aliases_map {α : Type} (items : List α) (statement : α → QueryStatement)
    (name : α → String) :
    Aliases (items.map fun item => aliased (statement item) (name item)) (items.map name) := by
  induction items with
  | nil => exact .nil
  | cons item rest induction => exact .cons ⟨_, rfl⟩ induction

theorem aliases_of_mapM {α : Type} {items : List α} {compiled : α → Compiled QueryStatement}
    {name : α → String} {columns : List QueryStatement}
    (mapped : items.mapM (fun item => do
      let statement ← compiled item
      .ok (aliased statement (name item))) = .ok columns) : Aliases columns (items.map name) := by
  have each := mapM_eq_ok mapped
  rw [Aliases, List.forall₂_map_right_iff]
  refine (each.imp ?_).flip
  intro item column compiledOk
  obtain ⟨statement, _, same⟩ := bind_eq_ok compiledOk
  exact ⟨statement, (Except.ok.inj same).symm⟩

theorem recordColumns_aliases (layout : ResourceLayout) (tableAlias : String) :
    Aliases (recordColumns layout tableAlias) ((recordNames layout).map Prod.fst) := by
  rw [recordNames_fst, recordColumns]
  exact List.rel_append (aliases_map _ _ _) (aliases_map _ _ _)

/-- What a query selects: columns under the names, and the rest of its text. -/
def SelectsColumns (command : Sql Origin) (names : List String) : Prop :=
  ∃ columns rest, Aliases columns names ∧
    command = [Piece.text "SELECT "] ++ joined ", " (columns.map BoundStatement.command) ++
      [Piece.text " FROM "] ++ rest

/-- What a command returns: columns under the names, between other text. -/
def ReturnsColumns (command : Sql Origin) (names : List String) : Prop :=
  ∃ columns before later, Aliases columns names ∧
    command = before ++ joined ", " (columns.map BoundStatement.command) ++ later

namespace PostgreSQLQueryTranslator

variable {translator : PostgreSQLQueryTranslator} {operation : QueryOperation}
  {layout : ResourceLayout} {targets : Targets} {tableAlias : String}

theorem order_length {keys : List OrderKey}
    (ordered : order operation layout targets = .ok keys) :
    keys.length = operation.orderCount layout := by
  unfold order at ordered
  obtain ⟨items, itemsOk, ordered⟩ := bind_eq_ok ordered
  obtain ⟨appended, appendedOk, ordered⟩ := bind_eq_ok ordered
  cases ordered
  rw [List.length_append, ← (mapM_eq_ok itemsOk).length_eq, ← (mapM_eq_ok appendedOk).length_eq,
    List.length_zipIdx, QueryOperation.orderCount]

theorem selectedColumns_aliases {columns : List QueryStatement}
    (selected : selectedColumns operation layout tableAlias targets = .ok columns) :
    Aliases columns ((if operation.projection.isEmpty then recordNames layout
      else operation.projectedNames).map Prod.fst) := by
  unfold selectedColumns at selected
  split at selected
  · rename_i empty
    cases selected
    rw [if_pos empty]
    exact recordColumns_aliases layout tableAlias
  · rename_i chosen
    rw [if_neg chosen, QueryOperation.projectedNames, List.map_map]
    exact aliases_of_mapM selected

theorem recordProjection_aliases {keys : List OrderKey} {names : List String}
    {select : QueryStatement} (length : keys.length = names.length)
    (projected : recordProjection operation layout tableAlias targets keys names = .ok select) :
    ∃ columns, select = commaSeparated columns ∧
      Aliases columns ((if operation.projection.isEmpty then recordNames layout
        else operation.projectedNames).map Prod.fst ++ names) := by
  unfold recordProjection at projected
  obtain ⟨columns, selected, projected⟩ := bind_eq_ok projected
  cases projected
  refine ⟨_, rfl, List.rel_append (selectedColumns_aliases selected) ?_⟩
  have cursors := aliases_map (keys.zip names) (fun entry => entry.1.statement) Prod.snd
  rwa [List.map_snd_zip (by omega)] at cursors

theorem aggregateProjection_aliases {select : QueryStatement}
    (projected : aggregateProjection operation targets = .ok select) :
    ∃ columns, select = commaSeparated columns ∧
      Aliases columns (operation.groupNames ++ operation.aggregates.map NamedAggregate.name) := by
  unfold aggregateProjection at projected
  obtain ⟨groups, grouped, projected⟩ := bind_eq_ok projected
  obtain ⟨aggregates, aggregated, projected⟩ := bind_eq_ok projected
  cases projected
  refine ⟨_, rfl, List.rel_append ?_ ?_⟩
  · have numbers := aliases_of_mapM grouped
    have names : operation.grouping.zipIdx.map (fun entry => s!"group_{entry.2}") =
        operation.groupNames := by
      rw [QueryOperation.groupNames, numbered, List.range_eq_range',
        ← List.zipIdx_map_snd 0 operation.grouping, List.map_map]
      rfl
    rwa [names] at numbers
  · have named := aliases_of_mapM aggregated
    have names : operation.aggregates.zipIdx.map (fun entry => entry.1.name) =
        operation.aggregates.map NamedAggregate.name := by
      rw [← List.zipIdx_map_fst 0 operation.aggregates, List.map_map,
        List.zipIdx_map_fst 0 operation.aggregates]
      rfl
    rwa [names] at named

theorem commaSeparated_command (columns : List QueryStatement) :
    (commaSeparated columns).command = joined ", " (columns.map BoundStatement.command) := rfl

/-- A query selects the columns of its base layout under their names. -/
theorem compileSelect_columns {context : TranslationContext} {compiled : CompiledQuery}
    (accepted : translator.compileSelect operation context = .ok compiled) :
    ∃ base layout, operation.targets.head? = some base ∧
      translator.settings.layout base = some layout ∧
      SelectsColumns compiled.statement.command ((operation.columns layout).map Prod.fst) ∧
      compiled.cursorFields = operation.internalNames layout := by
  unfold compileSelect at accepted
  obtain ⟨targets, targetsOk, accepted⟩ := bind_eq_ok accepted
  obtain ⟨base, baseOk, accepted⟩ := bind_eq_ok accepted
  obtain ⟨layout, layoutOk, accepted⟩ := bind_eq_ok accepted
  obtain ⟨tableAlias, aliasOk, accepted⟩ := bind_eq_ok accepted
  obtain ⟨joins, joinsOk, accepted⟩ := bind_eq_ok accepted
  obtain ⟨predicate, predicateOk, accepted⟩ := bind_eq_ok accepted
  have first : operation.targets.head? = some base := by
    unfold baseTarget at baseOk
    split at baseOk
    · rename_i listed
      cases baseOk
      rw [listed]
      rfl
    · exact nomatch baseOk
  refine ⟨base, layout, first, targets_layout targetsOk layoutOk, ?_⟩
  unfold QueryOperation.columns QueryOperation.internalNames
  split at accepted
  · rename_i kind
    obtain ⟨statement, statementOk, accepted⟩ := bind_eq_ok accepted
    cases accepted
    unfold aggregateStatement at statementOk
    obtain ⟨select, selectOk, statementOk⟩ := bind_eq_ok statementOk
    obtain ⟨group, groupOk, statementOk⟩ := bind_eq_ok statementOk
    cases statementOk
    obtain ⟨columns, rfl, aliases⟩ := aggregateProjection_aliases selectOk
    rw [if_pos kind, if_pos kind]
    refine ⟨⟨columns, tableName translator.settings layout ++
      ([Piece.text " AS ", .name tableAlias] ++ ((joins.map BoundStatement.command).flatten ++
        ([Piece.text " WHERE "] ++ (predicate.command ++ group.command)))), ?_, ?_⟩, rfl⟩
    · rw [List.map_append, List.map_map, List.map_map]
      simpa [Function.comp_def] using aliases
    · simp only [commaSeparated_command, List.append_assoc]
  · rename_i kind
    obtain ⟨record, recordOk, accepted⟩ := bind_eq_ok accepted
    cases accepted
    unfold recordStatement at recordOk
    obtain ⟨keys, orderOk, recordOk⟩ := bind_eq_ok recordOk
    obtain ⟨select, selectOk, recordOk⟩ := bind_eq_ok recordOk
    obtain ⟨restricted, restrictedOk, recordOk⟩ := bind_eq_ok recordOk
    cases recordOk
    have length := order_length orderOk
    obtain ⟨columns, rfl, aliases⟩ := recordProjection_aliases (by simp) selectOk
    rw [if_neg kind, if_neg kind, ← length]
    refine ⟨⟨columns, tableName translator.settings layout ++
      ([Piece.text " AS ", .name tableAlias] ++ ((joins.map BoundStatement.command).flatten ++
        ([Piece.text " WHERE "] ++ (restricted.command ++ ((orderBy keys).command ++
          [Piece.text " LIMIT ", .slot .limit]))))), ?_, ?_⟩, rfl⟩
    · have names : (numbered "__cursor_" keys.length).map (Prod.fst ∘ (·, false)) =
          numbered "__cursor_" keys.length := List.map_id _
      rw [List.map_append, List.map_map, names]
      exact aliases
    · simp only [commaSeparated_command, List.append_assoc]

end PostgreSQLQueryTranslator

/-! ## Mutations -/

namespace DMLCompiler

variable {compiler : DMLCompiler} {layout : ResourceLayout} {context : OperationContext}

/-- The columns of a record, between other text. -/
abbrev ReturnsRecord (layout : ResourceLayout) (command : Sql Origin) : Prop :=
  ReturnsColumns command ((recordNames layout).map Prod.fst)

theorem returning_between (before later : Sql Origin) :
    ReturnsRecord layout (before ++ returning layout "t" ++ later) :=
  ⟨_, before, later, recordColumns_aliases layout "t", rfl⟩

theorem returning_last (before : Sql Origin) :
    ReturnsRecord layout (before ++ returning layout "t") := by
  simpa using returning_between before []

theorem append_returns {data : Option Json} {command : DMLCommand}
    (compiled : compiler.append layout data context = .ok command) :
    ReturnsRecord layout command.statement.command := by
  unfold append at compiled
  split at compiled
  · obtain ⟨_, _, compiled⟩ := bind_eq_ok compiled
    obtain ⟨scope, _, compiled⟩ := bind_eq_ok compiled
    obtain ⟨values, _, compiled⟩ := bind_eq_ok compiled
    cases compiled
    exact returning_last _
  · exact nomatch compiled

theorem putStatement_returns {mode : PutMode} {expected : Option Json} {data : Json.Object}
    {statement : DMLStatement}
    (compiled : compiler.putStatement layout mode expected data context = .ok statement) :
    ReturnsRecord layout statement.command := by
  unfold putStatement at compiled
  obtain ⟨scope, _, compiled⟩ := bind_eq_ok compiled
  obtain ⟨values, _, compiled⟩ := bind_eq_ok compiled
  cases expected with
  | some expected =>
      dsimp only at compiled
      unfold conditionalPut at compiled
      dsimp only at compiled
      split at compiled
      · exact nomatch compiled
      · obtain ⟨changes, _, compiled⟩ := bind_eq_ok compiled
        obtain ⟨condition, _, compiled⟩ := bind_eq_ok compiled
        cases compiled
        exact returning_last _
  | none =>
      dsimp only at compiled
      obtain ⟨keys, _, compiled⟩ := bind_eq_ok compiled
      cases mode with
      | update =>
          dsimp only at compiled
          unfold updatePut at compiled
          obtain ⟨changes, _, compiled⟩ := bind_eq_ok compiled
          obtain ⟨identity, _, compiled⟩ := bind_eq_ok compiled
          obtain ⟨condition, _, compiled⟩ := bind_eq_ok compiled
          cases compiled
          exact returning_last _
      | upsert =>
          cases compiled
          exact returning_last _
      | ifAbsent =>
          cases compiled
          exact returning_last _

theorem put_returns {input : Json.Object} {command : DMLCommand}
    (compiled : compiler.put layout input context = .ok command) :
    ReturnsRecord layout command.statement.command := by
  unfold put at compiled
  obtain ⟨mode, _, compiled⟩ := bind_eq_ok compiled
  obtain ⟨expected, _, compiled⟩ := bind_eq_ok compiled
  split at compiled
  · obtain ⟨_, _, compiled⟩ := bind_eq_ok compiled
    obtain ⟨_, _, compiled⟩ := bind_eq_ok compiled
    obtain ⟨statement, statementOk, compiled⟩ := bind_eq_ok compiled
    cases compiled
    exact putStatement_returns statementOk
  · exact nomatch compiled

theorem get_returns {input : Json.Object} {command : DMLCommand}
    (compiled : compiler.get layout input context = .ok command) :
    ReturnsRecord layout command.statement.command := by
  unfold get at compiled
  split at compiled
  · obtain ⟨condition, _, compiled⟩ := bind_eq_ok compiled
    cases compiled
    simp only [List.append_assoc]
    rw [← List.append_assoc]
    exact returning_between _ _
  · exact nomatch compiled

theorem patch_returns {input : Json.Object} {command : DMLCommand}
    (compiled : compiler.patch layout input context = .ok command) :
    ReturnsRecord layout command.statement.command := by
  unfold patch at compiled
  split at compiled
  · obtain ⟨changes, _, compiled⟩ := bind_eq_ok compiled
    obtain ⟨condition, _, compiled⟩ := bind_eq_ok compiled
    cases compiled
    exact returning_last _
  · exact nomatch compiled

theorem delete_returns {input : Json.Object} {command : DMLCommand}
    (compiled : compiler.delete layout input context = .ok command) :
    ReturnsRecord layout command.statement.command := by
  unfold delete at compiled
  split at compiled
  · obtain ⟨condition, _, compiled⟩ := bind_eq_ok compiled
    cases compiled
    exact returning_last _
  · exact nomatch compiled

theorem atomicClaim_returns {filter changes : Json.Object} {limit : Nat} {command : DMLCommand}
    (compiled : compiler.atomicClaim layout filter changes limit context = .ok command) :
    ReturnsRecord layout command.statement.command := by
  unfold atomicClaim at compiled
  obtain ⟨_, compiled⟩ := check_eq_ok compiled
  obtain ⟨_, compiled⟩ := check_eq_ok compiled
  obtain ⟨condition, _, compiled⟩ := bind_eq_ok compiled
  obtain ⟨assigned, _, compiled⟩ := bind_eq_ok compiled
  obtain ⟨keys, _, compiled⟩ := bind_eq_ok compiled
  cases compiled
  exact returning_last _

/-- Every command of a mutation returns the record. -/
theorem compile_returns {method : Method} {canonical : String} {input : Json.Object}
    {commands : List DMLCommand}
    (compiled : compiler.compile method canonical input context = .ok commands) :
    ∃ layout, compiler.settings.layout canonical = some layout ∧
      ∀ command ∈ commands, ReturnsRecord layout command.statement.command := by
  have single : ∀ {layout : ResourceLayout} {compiled : Compiled DMLCommand},
      compiled.map (fun command => [command]) = .ok commands →
      (∀ {command : DMLCommand}, compiled = .ok command →
        ReturnsRecord layout command.statement.command) →
      ∀ command ∈ commands, ReturnsRecord layout command.statement.command := by
    intro layout compiled mapped returns command listed
    obtain ⟨only, compiledOk, rfl⟩ := map_eq_ok mapped
    cases List.mem_singleton.mp listed
    exact returns compiledOk
  unfold compile at compiled
  split at compiled
  · exact nomatch compiled
  · split at compiled
    · exact nomatch compiled
    · rename_i layout found
      refine ⟨layout, found, ?_⟩
      cases method with
      | put => exact single compiled put_returns
      | get => exact single compiled get_returns
      | patch => exact single compiled patch_returns
      | delete => exact single compiled delete_returns
      | append =>
          dsimp only at compiled
          split at compiled
          · split at compiled
            · exact nomatch compiled
            · exact forall_of_mapM _ compiled fun _ appended => append_returns appended
          · exact single compiled append_returns
      | atomicClaim => exact nomatch compiled

end DMLCompiler

/-! ## Accepted settings -/

theorem layout_names_nodup {settings : PostgreSQLSettings} {canonical : String}
    {layout : ResourceLayout} (accepted : settings.check = .ok ())
    (found : settings.layout canonical = some layout) : layout.fieldNames.Nodup := by
  have checked := (settings_checked accepted).layouts layout (List.mem_of_find?_eq_some found)
  rcases checked_of_check checked with ⟨_, _, empty⟩ | ⟨_, checked⟩
  · rw [ResourceLayout.fieldNames, empty]
    exact List.nodup_nil
  · exact checked.names

theorem recordNames_owned_iff {layout : ResourceLayout} (names : layout.fieldNames.Nodup) :
    KeysOwned (recordNames layout) [] ↔ FieldsApart layout [] := by
  have whole := @records_owned_iff layout names []
  simpa using whole

/-- The commands of a mutation, with the layout they are compiled for. -/
inductive DMLCompiler.Emits (compiler : DMLCompiler) : ResourceLayout → DMLCommand → Prop
  | request {method canonical input context commands layout command}
      (found : compiler.settings.layout canonical = some layout)
      (compiled : compiler.compile method canonical input context = .ok commands)
      (listed : command ∈ commands) : Emits compiler layout command
  | claim {canonical layout filter changes limit context command}
      (found : compiler.settings.layout canonical = some layout)
      (compiled : compiler.atomicClaim layout filter changes limit context = .ok command) :
      Emits compiler layout command

theorem DMLCompiler.Emits.returns {compiler : DMLCompiler} {layout : ResourceLayout}
    {command : DMLCommand} (emits : compiler.Emits layout command) :
    (∃ canonical, compiler.settings.layout canonical = some layout) ∧
      ReturnsRecord layout command.statement.command := by
  cases emits with
  | request found compiled listed =>
      obtain ⟨other, otherFound, each⟩ := compile_returns compiled
      cases found.symm.trans otherFound
      exact ⟨⟨_, found⟩, each command listed⟩
  | claim found compiled => exact ⟨⟨_, found⟩, atomicClaim_returns compiled⟩

namespace PostgreSQLQueryTranslator

/-- A layout that is accepted although a field is named like the version. -/
def versionedLayout : ResourceLayout :=
  { workLayout with fields := workLayout.fields ++
      [⟨"recordVersion", ⟨"revision", by decide⟩, .int64, false, true, .one, none, none⟩] }

def versionedSettings : PostgreSQLSettings := { workSettings with resources := [versionedLayout] }

def versionedTranslator : PostgreSQLQueryTranslator :=
  { workTranslator with settings := versionedSettings }

end PostgreSQLQueryTranslator

end MeridianPostgreSQL.Query
