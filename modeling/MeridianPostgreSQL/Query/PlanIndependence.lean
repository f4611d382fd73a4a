import MeridianPostgreSQL.Query.ValueIndependence

/-! # Values and the text of a plan

Operations that differ only in their values are translated to one text. -/

namespace MeridianPostgreSQL.Query

open Settings

theorem compile_command {targets : Targets} {site : Site} {expression other : Expression}
    {statement otherStatement : QueryStatement} (same : SameShape expression other)
    (compiled : compile targets site [] expression = .ok statement)
    (otherCompiled : compile targets site [] other = .ok otherStatement) :
    statement.command = otherStatement.command :=
  (compile_compiles [] expression statement compiled).command_eq same
    (compile_compiles [] other otherStatement otherCompiled)

theorem aliased_command {statement other : QueryStatement} {name : String}
    (same : statement.command = other.command) :
    (aliased statement name).command = (aliased other name).command := by
  simp only [aliased]
  rw [same]

theorem commaSeparated_command {parts others : List QueryStatement}
    (same : parts.map BoundStatement.command = others.map BoundStatement.command) :
    (commaSeparated parts).command = (commaSeparated others).command := by
  simp only [commaSeparated]
  rw [same]

theorem conjunction_pair {left right otherLeft otherRight : QueryStatement}
    (left_same : left.command = otherLeft.command)
    (right_same : right.command = otherRight.command) :
    (conjunction [left, right]).command = (conjunction [otherLeft, otherRight]).command :=
  conjunction_command (by simp [left_same, right_same])

/-! ## Order -/

/-- The text of an order key and what `_after` reads of it. -/
def OrderKey.shape (key : OrderKey) : Sql Origin × Direction × Nulls :=
  (key.statement.command, key.direction, key.nulls)

theorem map_shape {keys others : List OrderKey} {γ : Type} (read : OrderKey → γ)
    (same : keys.map OrderKey.shape = others.map OrderKey.shape)
    (determined : ∀ {key other : OrderKey}, key.shape = other.shape → read key = read other) :
    keys.map read = others.map read := by
  induction keys generalizing others with
  | nil => rw [List.map_eq_nil_iff.mp same.symm]
  | cons key rest induction =>
      cases others with
      | nil => exact nomatch same
      | cons other others =>
          rcases List.cons.inj same with ⟨first, later⟩
          rw [List.map_cons, List.map_cons, determined first, induction later]

theorem shape_eq_iff {key other : OrderKey} : key.shape = other.shape ↔
    key.statement.command = other.statement.command ∧ key.direction = other.direction ∧
      key.nulls = other.nulls := by
  simp [OrderKey.shape]

theorem orderBy_command {keys others : List OrderKey}
    (same : keys.map OrderKey.shape = others.map OrderKey.shape) :
    (orderBy keys).command = (orderBy others).command := by
  have parts := map_shape
    (fun key => key.statement.command ++ [Piece.text key.suffix]) same (by
      intro key other equal
      rcases shape_eq_iff.mp equal with ⟨command, direction, nulls⟩
      simp only [OrderKey.suffix]
      rw [command, direction, nulls])
  simp only [orderBy]
  rw [parts]

theorem after_command {key other : OrderKey} (same : key.shape = other.shape) (index : Nat)
    (value : Json) : (after key index value).command = (after other index value).command := by
  rcases shape_eq_iff.mp same with ⟨command, direction, nulls⟩
  unfold after
  dsimp only
  rw [command, direction, nulls]
  split
  · split <;> rfl
  · split <;> rfl

theorem notDistinct_command {key other : OrderKey} (same : key.shape = other.shape)
    (index : Nat) (value : Json) :
    (notDistinct key index value).command = (notDistinct other index value).command := by
  simp only [notDistinct]
  rw [(shape_eq_iff.mp same).1]

/-- What the text of a keyset depends on: the shapes of its keys, and the
values of the cursor for which of them are null. -/
def keysetShape (entries : List (OrderKey × Json)) :
    List ((Sql Origin × Direction × Nulls) × Json) :=
  entries.map (Prod.map OrderKey.shape id)

theorem keysetShape_zip {keys others : List OrderKey} (values : List Json)
    (same : keys.map OrderKey.shape = others.map OrderKey.shape) :
    keysetShape (keys.zip values) = keysetShape (others.zip values) := by
  simp only [keysetShape]
  rw [← List.zip_map_left, ← List.zip_map_left, same]

section Keysets

variable {entries others : List (OrderKey × Json)}
  (same : keysetShape entries = keysetShape others)

include same

theorem keyset_entry (index : Nat) : entries[index]?.map (Prod.map OrderKey.shape id) =
    others[index]?.map (Prod.map OrderKey.shape id) := by
  have found := congrArg (fun shapes : List _ => shapes[index]?) same
  simpa only [keysetShape, List.getElem?_map] using found

theorem keyset_read {γ : Type} {index : Nat} (read : OrderKey → Json → γ)
    (determined : ∀ {key other : OrderKey} (value : Json), key.shape = other.shape →
      read key value = read other value) :
    entries[index]?.map (fun entry => read entry.1 entry.2) =
      others[index]?.map fun entry => read entry.1 entry.2 := by
  have found := keyset_entry same index
  cases held : entries[index]? with
  | none => cases otherHeld : others[index]? <;> simp_all
  | some entry =>
      cases otherHeld : others[index]? with
      | none => simp_all
      | some other =>
          rw [held, otherHeld] at found
          rcases Prod.mk.inj (Option.some.inj found) with ⟨shape, value⟩
          have equal : entry.2 = other.2 := value
          rw [Option.map_some, Option.map_some, determined entry.2 shape, equal]

theorem keysetBranch_command (index : Nat) :
    (keysetBranch entries index).command = (keysetBranch others index).command := by
  apply conjunction_command
  rw [List.map_append, List.map_append]
  congr 1
  · apply List.ext_getElem?
    intro position
    simp only [List.getElem?_map, List.getElem?_zipIdx, List.getElem?_take, Option.map_map,
      Function.comp_def, Nat.zero_add]
    split
    · exact keyset_read same (fun key value => (notDistinct key position value).command)
        fun value shape => notDistinct_command shape position value
    · rfl
  · have found : entries[index]?.map (fun entry => (after entry.1 index entry.2).command) =
        others[index]?.map fun entry => (after entry.1 index entry.2).command :=
      keyset_read same (fun key value => (after key index value).command)
        fun value shape => after_command shape index value
    simpa only [Option.map_map, Function.comp_def, ← Option.toList_map] using
      congrArg Option.toList found

/-- Keysets of one shape have one text. -/
theorem keysetPredicate_command :
    (keysetPredicate entries).command = (keysetPredicate others).command := by
  have length : entries.length = others.length := by
    simpa [keysetShape] using congrArg List.length same
  simp only [keysetPredicate]
  rw [length]
  apply disjunction_command
  rw [List.map_map, List.map_map]
  apply List.map_congr_left
  intro index _
  exact keysetBranch_command same index

end Keysets

/-! ## Plans -/

namespace PostgreSQLQueryTranslator

variable {translator : PostgreSQLQueryTranslator} {operation other : QueryOperation}

theorem joinClause_command {targets : Targets} {join otherJoin : Join} {index : Nat}
    {clause otherClause : QueryStatement} (target : join.target = otherJoin.target)
    (left : join.left = otherJoin.left) (on : Query.SameShape join.on otherJoin.on)
    (compiled : translator.joinClause targets join index = .ok clause)
    (otherCompiled : translator.joinClause targets otherJoin index = .ok otherClause) :
    clause.command = otherClause.command := by
  unfold joinClause at compiled otherCompiled
  rw [← target, ← left] at otherCompiled
  rcases bind_eq_ok compiled with ⟨layout, layoutOk, compiled⟩
  rcases bind_eq_ok compiled with ⟨condition, conditionOk, compiled⟩
  rcases bind_eq_ok compiled with ⟨tableAlias, aliasOk, compiled⟩
  rcases bind_eq_ok otherCompiled with ⟨otherLayout, otherLayoutOk, otherCompiled⟩
  rcases bind_eq_ok otherCompiled with ⟨otherCondition, otherConditionOk, otherCompiled⟩
  rcases bind_eq_ok otherCompiled with ⟨otherAlias, otherAliasOk, otherCompiled⟩
  cases layoutOk.symm.trans otherLayoutOk
  cases aliasOk.symm.trans otherAliasOk
  cases compiled
  cases otherCompiled
  dsimp only
  rw [conjunction_pair (compile_command on conditionOk otherConditionOk) rfl]

theorem filterPredicate_command {targets : Targets} {tableAlias : String}
    {filter otherFilter : Option Expression} {predicate otherPredicate : QueryStatement}
    (shape : OptionalShape filter otherFilter)
    (compiled : translator.filterPredicate targets tableAlias filter = .ok predicate)
    (otherCompiled : translator.filterPredicate targets tableAlias otherFilter =
      .ok otherPredicate) : predicate.command = otherPredicate.command := by
  rcases shape with ⟨present, same⟩
  cases filter with
  | none =>
      cases otherFilter with
      | none =>
          cases compiled
          cases otherCompiled
          rfl
      | some inner => exact nomatch present
  | some inner =>
      cases otherFilter with
      | none => exact nomatch present
      | some otherInner =>
          rcases bind_eq_ok compiled with ⟨condition, conditionOk, compiled⟩
          rcases bind_eq_ok otherCompiled with ⟨otherCondition, otherConditionOk, otherCompiled⟩
          cases compiled
          cases otherCompiled
          exact conjunction_pair rfl
            (compile_command (same rfl rfl) conditionOk otherConditionOk)

theorem represented_eq (layout : ResourceLayout) {item otherItem : OrderItem}
    (same : Query.SameShape item.expression otherItem.expression) :
    represented layout item = represented layout otherItem := by
  unfold represented
  generalize item.expression = expression at same
  generalize otherItem.expression = otherExpression at same
  cases same <;> rfl

theorem filterMap_represented (layout : ResourceLayout) (shapes : operation.SameShape other) :
    operation.order.filterMap (represented layout) =
      other.order.filterMap (represented layout) := by
  have split : ∀ items : List OrderItem, items.filterMap (represented layout) =
      (items.map (represented layout)).filterMap id := by
    intro items
    rw [List.filterMap_map]
    rfl
  rw [split, split, shapes.order.map_eq (represented layout)
    fun same => represented_eq layout same.2.2]

theorem order_shape {layout : ResourceLayout} {targets : Targets}
    {keys otherKeys : List OrderKey} (shapes : operation.SameShape other)
    (compiled : order operation layout targets = .ok keys)
    (otherCompiled : order other layout targets = .ok otherKeys) :
    keys.map OrderKey.shape = otherKeys.map OrderKey.shape := by
  unfold order at compiled otherCompiled
  rw [← filterMap_represented layout shapes] at otherCompiled
  rcases bind_eq_ok compiled with ⟨chosen, chosenOk, compiled⟩
  rcases bind_eq_ok compiled with ⟨appended, appendedOk, compiled⟩
  rcases bind_eq_ok otherCompiled with ⟨otherChosen, otherChosenOk, otherCompiled⟩
  rcases bind_eq_ok otherCompiled with ⟨otherAppended, otherAppendedOk, otherCompiled⟩
  cases appendedOk.symm.trans otherAppendedOk
  cases compiled
  cases otherCompiled
  rw [List.map_append, List.map_append]
  congr 1
  apply mapM_measure OrderKey.shape shapes.order chosenOk otherChosenOk
  rintro index item otherItem key otherKey ⟨direction, nulls, expression⟩ keyOk otherKeyOk
  rcases bind_eq_ok keyOk with ⟨statement, statementOk, keyOk⟩
  rcases bind_eq_ok otherKeyOk with ⟨otherStatement, otherStatementOk, otherKeyOk⟩
  cases keyOk
  cases otherKeyOk
  simp only [OrderKey.shape]
  rw [compile_command expression statementOk otherStatementOk, direction, nulls]

theorem isEmpty_eq {α : Type} {same : α → α → Prop} {items others : List α}
    (pairwise : Pairwise same items others) : items.isEmpty = others.isEmpty := by
  cases items with
  | nil => rw [List.length_eq_zero_iff.mp pairwise.1.symm]
  | cons item rest =>
      cases others with
      | nil => exact nomatch pairwise.1
      | cons => rfl

theorem selectedColumns_command {layout : ResourceLayout} {tableAlias : String}
    {targets : Targets} {columns otherColumns : List QueryStatement}
    (shapes : operation.SameShape other)
    (compiled : selectedColumns operation layout tableAlias targets = .ok columns)
    (otherCompiled : selectedColumns other layout tableAlias targets = .ok otherColumns) :
    columns.map BoundStatement.command = otherColumns.map BoundStatement.command := by
  unfold selectedColumns at compiled otherCompiled
  rw [← isEmpty_eq shapes.projection] at otherCompiled
  split at compiled
  · rename_i bare
    rw [if_pos bare] at otherCompiled
    cases compiled
    cases otherCompiled
    rfl
  · rename_i chosen
    rw [if_neg chosen] at otherCompiled
    apply mapM_measure BoundStatement.command shapes.projection compiled otherCompiled
    rintro index projection otherProjection column otherColumn ⟨named, expression⟩ columnOk
      otherColumnOk
    rcases bind_eq_ok columnOk with ⟨statement, statementOk, columnOk⟩
    rcases bind_eq_ok otherColumnOk with ⟨otherStatement, otherStatementOk, otherColumnOk⟩
    cases columnOk
    cases otherColumnOk
    simp only [Projection.selectedAlias]
    rw [named]
    exact aliased_command (compile_command expression statementOk otherStatementOk)

theorem recordProjection_command {layout : ResourceLayout} {tableAlias : String}
    {targets : Targets} {keys otherKeys : List OrderKey} {cursorFields : List String}
    {select otherSelect : QueryStatement} (shapes : operation.SameShape other)
    (same : keys.map OrderKey.shape = otherKeys.map OrderKey.shape)
    (compiled : recordProjection operation layout tableAlias targets keys cursorFields =
      .ok select)
    (otherCompiled : recordProjection other layout tableAlias targets otherKeys cursorFields =
      .ok otherSelect) : select.command = otherSelect.command := by
  rcases bind_eq_ok compiled with ⟨columns, columnsOk, compiled⟩
  rcases bind_eq_ok otherCompiled with ⟨otherColumns, otherColumnsOk, otherCompiled⟩
  cases compiled
  cases otherCompiled
  have commands : keys.map (fun key => key.statement.command) =
      otherKeys.map fun key => key.statement.command :=
    map_shape _ same fun equal => (shape_eq_iff.mp equal).1
  have cursors : ∀ keys : List OrderKey,
      ((keys.zip cursorFields).map fun entry => aliased entry.1.statement entry.2).map
        BoundStatement.command =
      ((keys.map fun key => key.statement.command).zip cursorFields).map fun entry =>
        entry.1 ++ [Piece.text " AS ", .name entry.2] := by
    intro keys
    simp [List.zip_map_left, aliased, Function.comp_def]
  apply commaSeparated_command
  rw [List.map_append, List.map_append, cursors, cursors, commands,
    selectedColumns_command shapes columnsOk otherColumnsOk]

theorem groups_command {targets : Targets} {groups otherGroups : List QueryStatement}
    (shapes : operation.SameShape other)
    (compiled : (operation.grouping.zipIdx.mapM fun grouping =>
      Query.compile targets (.grouping grouping.2) [] grouping.1) = .ok groups)
    (otherCompiled : (other.grouping.zipIdx.mapM fun grouping =>
      Query.compile targets (.grouping grouping.2) [] grouping.1) = .ok otherGroups) :
    groups.map BoundStatement.command = otherGroups.map BoundStatement.command := by
  apply mapM_measure BoundStatement.command shapes.grouping compiled otherCompiled
  intro index grouping otherGrouping group otherGroup same groupOk otherGroupOk
  exact compile_command same groupOk otherGroupOk

theorem aggregateProjection_command {targets : Targets} {select otherSelect : QueryStatement}
    (shapes : operation.SameShape other)
    (compiled : aggregateProjection operation targets = .ok select)
    (otherCompiled : aggregateProjection other targets = .ok otherSelect) :
    select.command = otherSelect.command := by
  rcases bind_eq_ok compiled with ⟨groups, groupsOk, compiled⟩
  rcases bind_eq_ok compiled with ⟨aggregates, aggregatesOk, compiled⟩
  rcases bind_eq_ok otherCompiled with ⟨otherGroups, otherGroupsOk, otherCompiled⟩
  rcases bind_eq_ok otherCompiled with ⟨otherAggregates, otherAggregatesOk, otherCompiled⟩
  cases compiled
  cases otherCompiled
  apply commaSeparated_command
  rw [List.map_append, List.map_append]
  congr 1
  · apply mapM_measure BoundStatement.command shapes.grouping groupsOk otherGroupsOk
    intro index grouping otherGrouping group otherGroup same groupOk otherGroupOk
    rcases bind_eq_ok groupOk with ⟨statement, statementOk, groupOk⟩
    rcases bind_eq_ok otherGroupOk with ⟨otherStatement, otherStatementOk, otherGroupOk⟩
    cases groupOk
    cases otherGroupOk
    exact aliased_command (compile_command same statementOk otherStatementOk)
  · apply mapM_measure BoundStatement.command shapes.aggregates aggregatesOk otherAggregatesOk
    rintro index aggregate otherAggregate column otherColumn ⟨named, same⟩ columnOk otherColumnOk
    rcases bind_eq_ok columnOk with ⟨statement, statementOk, columnOk⟩
    rcases bind_eq_ok otherColumnOk with ⟨otherStatement, otherStatementOk, otherColumnOk⟩
    cases columnOk
    cases otherColumnOk
    dsimp only at named same statementOk otherStatementOk ⊢
    rw [named]
    exact aliased_command (compile_command same statementOk otherStatementOk)

theorem grouping_command {targets : Targets} {group otherGroup : QueryStatement}
    (shapes : operation.SameShape other)
    (compiled : grouping operation targets = .ok group)
    (otherCompiled : grouping other targets = .ok otherGroup) :
    group.command = otherGroup.command := by
  unfold grouping at compiled otherCompiled
  rw [← isEmpty_eq shapes.grouping] at otherCompiled
  split at compiled
  · rename_i bare
    rw [if_pos bare] at otherCompiled
    cases compiled
    cases otherCompiled
    rfl
  · rename_i grouped
    rw [if_neg grouped] at otherCompiled
    rcases bind_eq_ok compiled with ⟨groups, groupsOk, compiled⟩
    rcases bind_eq_ok otherCompiled with ⟨otherGroups, otherGroupsOk, otherCompiled⟩
    cases compiled
    cases otherCompiled
    dsimp only
    rw [groups_command shapes groupsOk otherGroupsOk]

/-- One cursor holds one sort tuple, so two pages after it have one keyset. -/
theorem keyset_command {context : TranslationContext} {keys otherKeys : List OrderKey}
    {predicate otherPredicate : QueryStatement} (shapes : operation.SameShape other)
    (same : keys.map OrderKey.shape = otherKeys.map OrderKey.shape)
    (compiled : translator.keyset operation context keys = .ok predicate)
    (otherCompiled : translator.keyset other context otherKeys = .ok otherPredicate) :
    predicate.command = otherPredicate.command := by
  unfold keyset at compiled otherCompiled
  rw [← shapes.cursor] at otherCompiled
  split at compiled
  · rename_i signer cursor signs given
    rw [signs, given] at otherCompiled
    rcases bind_eq_ok compiled with ⟨payload, verified, compiled⟩
    rcases bind_eq_ok otherCompiled with ⟨otherPayload, otherVerified, otherCompiled⟩
    cases verified.symm.trans otherVerified
    split at compiled
    · exact nomatch compiled
    · split at otherCompiled
      · exact nomatch otherCompiled
      · cases compiled
        cases otherCompiled
        exact keysetPredicate_command (keysetShape_zip payload.sortTuple same)
  · exact nomatch compiled

theorem cursorPredicate_command {context : TranslationContext} {keys otherKeys : List OrderKey}
    {before otherBefore predicate otherPredicate : QueryStatement}
    (shapes : operation.SameShape other)
    (same : keys.map OrderKey.shape = otherKeys.map OrderKey.shape)
    (before_same : before.command = otherBefore.command)
    (compiled : translator.cursorPredicate operation context keys before = .ok predicate)
    (otherCompiled : translator.cursorPredicate other context otherKeys otherBefore =
      .ok otherPredicate) : predicate.command = otherPredicate.command := by
  unfold cursorPredicate at compiled otherCompiled
  rw [← shapes.cursor] at otherCompiled
  split at compiled
  · rename_i present
    rw [if_pos present] at otherCompiled
    rcases bind_eq_ok compiled with ⟨keyset, keysetOk, compiled⟩
    rcases bind_eq_ok otherCompiled with ⟨otherKeyset, otherKeysetOk, otherCompiled⟩
    cases compiled
    cases otherCompiled
    exact conjunction_pair before_same (keyset_command shapes same keysetOk otherKeysetOk)
  · rename_i absent
    rw [if_neg absent] at otherCompiled
    cases compiled
    cases otherCompiled
    exact before_same

theorem aggregateStatement_command {targets : Targets}
    {source otherSource predicate otherPredicate statement otherStatement : QueryStatement}
    (shapes : operation.SameShape other) (source_same : source.command = otherSource.command)
    (predicate_same : predicate.command = otherPredicate.command)
    (compiled : aggregateStatement operation targets source predicate = .ok statement)
    (otherCompiled : aggregateStatement other targets otherSource otherPredicate =
      .ok otherStatement) : statement.command = otherStatement.command := by
  rcases bind_eq_ok compiled with ⟨select, selectOk, compiled⟩
  rcases bind_eq_ok compiled with ⟨group, groupOk, compiled⟩
  rcases bind_eq_ok otherCompiled with ⟨otherSelect, otherSelectOk, otherCompiled⟩
  rcases bind_eq_ok otherCompiled with ⟨otherGroup, otherGroupOk, otherCompiled⟩
  cases compiled
  cases otherCompiled
  dsimp only
  rw [aggregateProjection_command shapes selectOk otherSelectOk, source_same, predicate_same,
    grouping_command shapes groupOk otherGroupOk]

theorem recordStatement_command {context : TranslationContext} {layout : ResourceLayout}
    {tableAlias : String} {targets : Targets}
    {source otherSource predicate otherPredicate : QueryStatement}
    {record otherRecord : QueryStatement × List String}
    (shapes : operation.SameShape other) (source_same : source.command = otherSource.command)
    (predicate_same : predicate.command = otherPredicate.command)
    (compiled : translator.recordStatement operation context layout tableAlias targets source
      predicate = .ok record)
    (otherCompiled : translator.recordStatement other context layout tableAlias targets
      otherSource otherPredicate = .ok otherRecord) :
    record.1.command = otherRecord.1.command := by
  rcases bind_eq_ok compiled with ⟨keys, keysOk, compiled⟩
  rcases bind_eq_ok compiled with ⟨select, selectOk, compiled⟩
  rcases bind_eq_ok compiled with ⟨restricted, restrictedOk, compiled⟩
  rcases bind_eq_ok otherCompiled with ⟨otherKeys, otherKeysOk, otherCompiled⟩
  rcases bind_eq_ok otherCompiled with ⟨otherSelect, otherSelectOk, otherCompiled⟩
  rcases bind_eq_ok otherCompiled with ⟨otherRestricted, otherRestrictedOk, otherCompiled⟩
  cases compiled
  cases otherCompiled
  have same := order_shape shapes keysOk otherKeysOk
  have length : keys.length = otherKeys.length := by
    simpa using congrArg List.length same
  rw [← length] at otherSelectOk
  dsimp only
  rw [recordProjection_command shapes same selectOk otherSelectOk, source_same,
    cursorPredicate_command shapes same predicate_same restrictedOk otherRestrictedOk,
    orderBy_command same]

theorem targets_eq (shapes : operation.SameShape other) :
    translator.targets operation = translator.targets other := by
  unfold targets
  rw [shapes.targets]

theorem baseTarget_eq (shapes : operation.SameShape other) :
    baseTarget operation = baseTarget other := by
  unfold baseTarget
  rw [shapes.targets]

theorem compileSelect_command {context : TranslationContext}
    {compiled otherCompiled : CompiledQuery} (shapes : operation.SameShape other)
    (accepted : translator.compileSelect operation context = .ok compiled)
    (otherAccepted : translator.compileSelect other context = .ok otherCompiled) :
    compiled.statement.command = otherCompiled.statement.command := by
  unfold compileSelect at accepted otherAccepted
  rw [← targets_eq shapes, ← baseTarget_eq shapes, ← shapes.kind] at otherAccepted
  rcases bind_eq_ok accepted with ⟨targets, targetsOk, accepted⟩
  rcases bind_eq_ok accepted with ⟨base, baseOk, accepted⟩
  rcases bind_eq_ok accepted with ⟨layout, layoutOk, accepted⟩
  rcases bind_eq_ok accepted with ⟨tableAlias, aliasOk, accepted⟩
  rcases bind_eq_ok accepted with ⟨joins, joinsOk, accepted⟩
  rcases bind_eq_ok accepted with ⟨predicate, predicateOk, accepted⟩
  rw [targetsOk, baseOk] at otherAccepted
  rcases bind_eq_ok otherAccepted with ⟨_, same, otherAccepted⟩
  cases same
  rcases bind_eq_ok otherAccepted with ⟨_, same, otherAccepted⟩
  cases same
  rw [layoutOk, aliasOk] at otherAccepted
  rcases bind_eq_ok otherAccepted with ⟨_, same, otherAccepted⟩
  cases same
  rcases bind_eq_ok otherAccepted with ⟨_, same, otherAccepted⟩
  cases same
  rcases bind_eq_ok otherAccepted with ⟨otherJoins, otherJoinsOk, otherAccepted⟩
  rcases bind_eq_ok otherAccepted with ⟨otherPredicate, otherPredicateOk, otherAccepted⟩
  have clauses : joins.map BoundStatement.command = otherJoins.map BoundStatement.command := by
    apply mapM_measure BoundStatement.command shapes.joins joinsOk otherJoinsOk
    rintro index join otherJoin clause otherClause ⟨target, left, on⟩ clauseOk otherClauseOk
    exact joinClause_command target left on clauseOk otherClauseOk
  have predicates := filterPredicate_command shapes.filter predicateOk otherPredicateOk
  split at accepted
  · rename_i aggregates
    rw [if_pos aggregates] at otherAccepted
    rcases bind_eq_ok accepted with ⟨statement, statementOk, accepted⟩
    rcases bind_eq_ok otherAccepted with ⟨otherStatement, otherStatementOk, otherAccepted⟩
    cases accepted
    cases otherAccepted
    exact aggregateStatement_command shapes (by rw [clauses]) predicates statementOk
      otherStatementOk
  · rename_i records
    rw [if_neg records] at otherAccepted
    rcases bind_eq_ok accepted with ⟨record, recordOk, accepted⟩
    rcases bind_eq_ok otherAccepted with ⟨otherRecord, otherRecordOk, otherAccepted⟩
    cases accepted
    cases otherAccepted
    exact recordStatement_command shapes (by rw [clauses]) predicates recordOk otherRecordOk

/-! ## Traversals -/

section Traversals

variable {traversal otherTraversal : Traversal}

theorem relationScope_command {ref : String} {index : Nat} {layout : ResourceLayout}
    {scope otherScope : QueryStatement}
    (shape : OptionalShape (traversal.relationPredicates.lookup ref)
      (otherTraversal.relationPredicates.lookup ref))
    (compiled : translator.relationScope traversal ref index layout = .ok scope)
    (otherCompiled : translator.relationScope otherTraversal ref index layout =
      .ok otherScope) : scope.command = otherScope.command := by
  rcases shape with ⟨present, same⟩
  unfold relationScope at compiled otherCompiled
  generalize traversal.relationPredicates.lookup ref = predicate at *
  generalize otherTraversal.relationPredicates.lookup ref = otherPredicate at *
  cases predicate with
  | none =>
      cases otherPredicate with
      | none =>
          cases compiled
          cases otherCompiled
          rfl
      | some inner => exact nomatch present
  | some inner =>
      cases otherPredicate with
      | none => exact nomatch present
      | some otherInner =>
          rcases bind_eq_ok compiled with ⟨condition, conditionOk, compiled⟩
          rcases bind_eq_ok otherCompiled with ⟨otherCondition, otherConditionOk, otherCompiled⟩
          cases compiled
          cases otherCompiled
          exact conjunction_pair rfl
            (compile_command (same rfl rfl) conditionOk otherConditionOk)

theorem edgePart_command {scope otherScope : QueryStatement}
    (same : scope.command = otherScope.command) (columns : Sql Origin) (index : Nat) (ref : String)
    (layout : ResourceLayout) :
    (translator.edgePart columns index ref layout scope).command =
      (translator.edgePart columns index ref layout otherScope).command := by
  simp only [edgePart]
  rw [same]

theorem edgeParts_command {ref : String} {index : Nat} {edges otherEdges : List QueryStatement}
    (shapes : traversal.SameShape otherTraversal)
    (compiled : translator.edgeParts traversal ref index = .ok edges)
    (otherCompiled : translator.edgeParts otherTraversal ref index = .ok otherEdges) :
    edges.map BoundStatement.command = otherEdges.map BoundStatement.command := by
  unfold edgeParts at compiled otherCompiled
  rw [← shapes.direction] at otherCompiled
  rcases bind_eq_ok compiled with ⟨layout, layoutOk, compiled⟩
  rcases bind_eq_ok otherCompiled with ⟨otherLayout, otherLayoutOk, otherCompiled⟩
  cases layoutOk.symm.trans otherLayoutOk
  split at compiled
  · exact nomatch compiled
  · rename_i relation relates
    rw [relates] at otherCompiled
    rcases bind_eq_ok compiled with ⟨scope, scopeOk, compiled⟩
    rcases bind_eq_ok otherCompiled with ⟨otherScope, otherScopeOk, otherCompiled⟩
    have same := relationScope_command (shapes.relationPredicates ref) scopeOk otherScopeOk
    cases compiled
    cases otherCompiled
    rw [List.map_append, List.map_append]
    congr 1
    · split
      · simp [edgePart_command same]
      · rfl
    · split
      · simp [edgePart_command same]
      · rfl

theorem traversalStatement_command {edges otherEdges : List QueryStatement}
    (same : edges.map BoundStatement.command = otherEdges.map BoundStatement.command) :
    (translator.traversalStatement operation traversal edges).command =
      (translator.traversalStatement other otherTraversal otherEdges).command := by
  simp only [traversalStatement]
  rw [same]

theorem compileTraversal_command {context : TranslationContext}
    {compiled otherCompiled : CompiledQuery} (shapes : traversal.SameShape otherTraversal)
    (accepted : translator.compileTraversal operation traversal context = .ok compiled)
    (otherAccepted : translator.compileTraversal other otherTraversal context =
      .ok otherCompiled) :
    compiled.statement.command = otherCompiled.statement.command := by
  rcases compileTraversal_cases accepted with ⟨edges, edgesOk, rfl⟩
  rcases compileTraversal_cases otherAccepted with ⟨otherEdges, otherEdgesOk, rfl⟩
  have parts : edges.map (List.map BoundStatement.command) =
      otherEdges.map (List.map BoundStatement.command) := by
    have refs : Pairwise Eq traversal.relationCollections otherTraversal.relationCollections :=
      ⟨by rw [shapes.relationCollections], fun found otherFound => by
        rw [shapes.relationCollections] at found
        exact Option.some.inj (found.symm.trans otherFound)⟩
    apply mapM_measure (List.map BoundStatement.command) refs edgesOk otherEdgesOk
    rintro index ref _ part otherPart rfl partOk otherPartOk
    exact edgeParts_command shapes partOk otherPartOk
  apply traversalStatement_command
  rw [List.map_flatten, List.map_flatten, parts]

end Traversals

/-- Two accepted plans for operations of one shape have one text. -/
theorem compile_plan_command {plan otherPlan : Plan} {context : TranslationContext}
    {compiled otherCompiled : CompiledQuery}
    (shapes : plan.operation.SameShape otherPlan.operation)
    (empty : plan.emptyResult = otherPlan.emptyResult)
    (accepted : translator.compile plan context = .ok compiled)
    (otherAccepted : translator.compile otherPlan context = .ok otherCompiled) :
    compiled.statement.command = otherCompiled.statement.command := by
  rcases compile_cases accepted with ⟨isEmpty, equal⟩ |
    ⟨full, traverses, traversal, given, walked⟩ | ⟨full, walks, _, selected⟩
  · rcases compile_cases otherAccepted with ⟨_, otherEqual⟩ | ⟨otherFull, _⟩ | ⟨otherFull, _⟩
    · rw [equal, otherEqual]
    · exact nomatch isEmpty.symm.trans (empty.trans otherFull)
    · exact nomatch isEmpty.symm.trans (empty.trans otherFull)
  · rcases compile_cases otherAccepted with ⟨isEmpty, _⟩ |
      ⟨_, _, otherTraversal, otherGiven, otherWalked⟩ | ⟨_, otherWalks, _⟩
    · exact nomatch full.symm.trans (empty.trans isEmpty)
    · exact compileTraversal_command (shapes.traversal given otherGiven) walked otherWalked
    · exact absurd (shapes.kind.symm.trans traverses) otherWalks
  · rcases compile_cases otherAccepted with ⟨isEmpty, _⟩ | ⟨_, otherTraverses, _⟩ |
      ⟨_, _, _, otherSelected⟩
    · exact nomatch full.symm.trans (empty.trans isEmpty)
    · exact absurd (shapes.kind.trans otherTraverses) walks
    · exact compileSelect_command shapes selected otherSelected

end PostgreSQLQueryTranslator

end MeridianPostgreSQL.Query
