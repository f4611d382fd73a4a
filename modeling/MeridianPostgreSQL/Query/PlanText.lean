import MeridianPostgreSQL.Query.DriverText

/-! # Driver-safe plans

When the driver accepts the statement of a plan and finds its parameters. -/

namespace MeridianPostgreSQL.Query

open Settings

/-! ## Plans -/

def percentFreeName (name : String) : Bool := !name.toList.contains '%'

/-- The columns of a plan write no percent sign: neither its projections nor,
without any, the names of the fields of its base layout. -/
def QueryOperation.columnsPercentFree (operation : QueryOperation)
    (settings : PostgreSQLSettings) : Bool :=
  if operation.projection.isEmpty then
    (operation.targets.head?.bind settings.layout).all fun layout =>
      layout.fieldNames.all percentFreeName
  else
    operation.projection.all fun projection =>
      projection.expression.percentFree && projection.resultAlias.all percentFreeName

def QueryOperation.aggregatesPercentFree (operation : QueryOperation) : Bool :=
  operation.grouping.all Expression.percentFree &&
    operation.aggregates.all fun aggregate =>
      aggregate.aggregate.percentFree && percentFreeName aggregate.name

def Traversal.percentFree (traversal : Traversal) : Bool :=
  traversal.relationCollections.all fun ref =>
    (traversal.relationPredicates.lookup ref).all Expression.percentFree

/-- No `modulo` or `prefix` is compiled into the statement of the plan, and no
name the statement gives to a column holds a percent sign. -/
def Plan.percentFree (plan : Plan) (settings : PostgreSQLSettings) : Bool :=
  let operation := plan.operation
  plan.emptyResult ||
    match operation.kind with
    | .traverse => operation.traversal.all Traversal.percentFree
    | .aggregate =>
        operation.aggregatesPercentFree &&
          ((operation.joins.all fun join => join.on.percentFree) &&
            operation.filter.all Expression.percentFree)
    | _ =>
        operation.columnsPercentFree settings &&
          ((operation.joins.all fun join => join.on.percentFree) &&
            (operation.filter.all Expression.percentFree &&
              operation.order.all fun item => item.expression.percentFree))

/-! ## Compiled lists -/

theorem all_eq_of_mapM {α β : Type} {items : List α} {f : α → Compiled β} {results : List β}
    (g : β → Bool) (h : α → Bool) (equal : items.mapM f = .ok results)
    (each : ∀ {item result}, item ∈ items → f item = .ok result → g result = h item) :
    results.all g = items.all h := by
  have mapped := mapM_eq_ok equal
  apply all_eq_of_index mapped.length_eq
  intro index item result found held
  rcases List.getElem?_eq_some_iff.mp found with ⟨first, rfl⟩
  rcases List.getElem?_eq_some_iff.mp held with ⟨second, rfl⟩
  exact each (List.getElem_mem first) (mapped.get first second)

theorem all_eq_of_mapM_zipIdx {α β : Type} {items : List α} {f : α × Nat → Compiled β}
    {results : List β} (g : β → Bool) (h : α → Bool)
    (equal : items.zipIdx.mapM f = .ok results)
    (each : ∀ {item index result}, f (item, index) = .ok result → g result = h item) :
    results.all g = items.all h := by
  rw [all_eq_of_mapM g (fun item => h item.1) equal fun listed compiled => each compiled]
  rw [← Function.comp_def h Prod.fst, ← List.all_map, List.zipIdx_map_fst]

theorem toString_plain (index : Nat) : '%' ∉ (toString index).toList := by
  intro percent
  have digits : '%' ∈ Nat.toDigits 10 index := by
    rw [← Nat.toList_repr]
    exact percent
  exact absurd (Nat.isDigit_of_mem_toDigits (by decide) (by decide) digits) (by decide)

theorem percentFreeName_numbered {stem : String} (plain : percentFreeName stem = true)
    (index : Nat) : percentFreeName (stem ++ toString index) = true := by
  have numbered := toString_plain index
  simp only [percentFreeName, Bool.not_eq_true', List.contains_eq_mem, decide_eq_false_iff_not]
    at plain ⊢
  rw [String.toList_append, List.mem_append, not_or]
  exact ⟨plain, numbered⟩

/-! ## Targets -/

@[simp] theorem clean_name (name : String) :
    (Piece.name name : Piece Origin).clean = percentFreeName name := rfl

@[simp] theorem clean_slot (origin : Origin) : (Piece.slot origin).clean = true := rfl

theorem clean_text (sql : String) :
    (Piece.text sql : Piece Origin).clean = !sql.toList.contains '%' := rfl

theorem percentFreeName_identifier (identifier : Identifier) :
    percentFreeName identifier.text = true := by
  have clean : (Piece.name identifier.text : Piece Origin).clean = true :=
    clean_identifier identifier
  exact clean

theorem mem_setKey {α : Type} {entries : List (String × α)} {key : String} {value : α}
    {entry : String × α} (member : entry ∈ setKey entries key value) :
    entry = (key, value) ∨ entry ∈ entries := by
  unfold setKey at member
  split at member
  · rcases List.mem_map.mp member with ⟨old, listed, rfl⟩
    split
    · exact .inl rfl
    · exact .inr listed
  · rcases List.mem_append.mp member with old | new
    · exact .inr old
    · exact .inl (List.mem_singleton.mp new)

namespace PostgreSQLQueryTranslator

variable {translator : PostgreSQLQueryTranslator} {operation : QueryOperation}

/-- The targets carry the aliases the translator numbers them with and the
layouts of the settings. -/
structure Numbered (translator : PostgreSQLQueryTranslator) (targets : Targets) : Prop where
  clean : targets.Clean
  layouts : ∀ entry ∈ targets.layouts, translator.settings.layout entry.1 = some entry.2

theorem foldlM_numbered {entries : List (String × Nat)} {before after : Targets}
    (numbered : translator.Numbered before)
    (collected : (entries.foldlM (fun collected target => do
      let layout ← translator.layout target.1
      .ok ⟨setKey collected.aliases target.1 s!"t{target.2}",
        setKey collected.layouts target.1 layout⟩) before : Compiled Targets) = .ok after) :
    translator.Numbered after := by
  induction entries generalizing before with
  | nil =>
      cases collected
      exact numbered
  | cons entry rest induction =>
      rw [List.foldlM_cons] at collected
      rcases bind_eq_ok collected with ⟨next, stepped, collected⟩
      rcases bind_eq_ok stepped with ⟨layout, found, stepped⟩
      cases stepped
      apply induction _ collected
      constructor
      · intro target member
        rcases mem_setKey member with rfl | old
        · exact percentFreeName_numbered (by rfl) entry.2
        · exact numbered.clean target old
      · intro target member
        rcases mem_setKey member with rfl | old
        · unfold PostgreSQLQueryTranslator.layout at found
          split at found
          · cases found
            assumption
          · exact nomatch found
        · exact numbered.layouts target old

theorem targets_numbered {targets : Targets}
    (collected : translator.targets operation = .ok targets) : translator.Numbered targets :=
  foldlM_numbered (Numbered.mk (by simp [Targets.Clean]) (by simp)) collected

/-! ## Parts of a statement -/

theorem clean_scopeColumn {settings : PostgreSQLSettings} {column : String}
    (listed : column ∈ settings.scopeColumns) : percentFreeName column = true := by
  rcases List.mem_cons.mp listed with rfl | listed
  · rfl
  · rcases List.mem_map.mp listed with ⟨key, _, rfl⟩
    have plain := percentFreeName_identifier key
    simp only [percentFreeName, Bool.not_eq_true', List.contains_eq_mem,
      decide_eq_false_iff_not] at plain ⊢
    rw [String.toList_append, List.mem_append, not_or]
    exact ⟨by decide, plain⟩

theorem scopePredicate_clean {tableAlias : String}
    (plain : percentFreeName tableAlias = true) :
    Sql.clean (translator.scopePredicate tableAlias).command = true := by
  have separator : (Piece.text " AND " : Piece Origin).clean = true := by rfl
  rw [scopePredicate, clean_joined separator, List.all_map, List.all_eq_true]
  intro column listed
  simp [clean_text, plain, clean_scopeColumn listed]

theorem clean_comma : (Piece.text ", " : Piece Origin).clean = true := by rfl

theorem aliased_clean (statement : QueryStatement) (name : String) :
    Sql.clean (aliased statement name).command =
      (statement.command.clean && percentFreeName name) := by
  simp [aliased, clean_text]

theorem commaSeparated_clean (parts : List QueryStatement) :
    Sql.clean (commaSeparated parts).command = parts.all fun part => part.command.clean := by
  rw [commaSeparated, clean_joined clean_comma, List.all_map]
  rfl

theorem tableName_clean (layout : ResourceLayout) :
    Sql.clean (tableName translator.settings layout) = true := by
  simp [tableName, percentFreeName_identifier]

theorem recordColumns_clean {layout : ResourceLayout} {tableAlias : String}
    (plain : percentFreeName tableAlias = true) :
    ((recordColumns layout tableAlias).all fun column => column.command.clean) =
      layout.fieldNames.all percentFreeName := by
  have column : ∀ field : FieldLayout, Sql.clean (fieldColumn tableAlias field) = true := by
    intro field
    unfold fieldColumn
    split <;> simp [clean_text, plain, percentFreeName_identifier]
  have metadata : ((metadataColumns layout).all fun column =>
      percentFreeName column.1 && percentFreeName column.2) = true := by
    apply List.all_eq_true.mpr
    intro entry listed
    have known : ∀ entry ∈ [("__record_version", "recordVersion"),
        ("__created_at", "createdAt"), ("__updated_at", "updatedAt")],
        (percentFreeName entry.1 && percentFreeName entry.2) = true := by decide
    exact known entry (List.mem_of_mem_filter listed)
  rw [recordColumns, List.all_append, List.all_map, List.all_map, ResourceLayout.fieldNames,
    List.all_map]
  simp only [Function.comp_def, aliased_clean, column, clean_ident, List.all_cons, List.all_nil,
    clean_name, plain, Bool.true_and, Bool.and_true, metadata]

section Numbered

variable {targets : Targets} (numbered : translator.Numbered targets)

include numbered

theorem compile_clean {site : Site} {root : Expression} {statement : QueryStatement}
    (compiled : Query.compile targets site [] root = .ok statement) :
    statement.command.clean = root.percentFree :=
  (compile_compiles [] root statement compiled).clean_eq numbered.clean

theorem selectedColumns_clean {layout : ResourceLayout} {tableAlias base : String}
    {columns : List QueryStatement} (plain : percentFreeName tableAlias = true)
    (first : operation.targets.head? = some base)
    (given : translator.settings.layout base = some layout)
    (compiled : selectedColumns operation layout tableAlias targets = .ok columns) :
    (columns.all fun column => column.command.clean) =
      operation.columnsPercentFree translator.settings := by
  unfold selectedColumns at compiled
  unfold QueryOperation.columnsPercentFree
  split at compiled
  · rename_i whole
    cases compiled
    rw [if_pos whole, recordColumns_clean plain, first, Option.bind_some, given]
    rfl
  · rename_i chosen
    rw [if_neg chosen]
    apply all_eq_of_mapM_zipIdx _ _ compiled
    intro projection index result compiled
    rcases bind_eq_ok compiled with ⟨statement, statementOk, compiled⟩
    cases compiled
    rw [aliased_clean, compile_clean numbered statementOk]
    have unnamed : percentFreeName s!"value_{index}" = true :=
      percentFreeName_numbered (by rfl) index
    unfold Projection.selectedAlias
    cases projection.resultAlias with
    | none => rw [unnamed]; rfl
    | some name =>
        by_cases blank : name = ""
        · subst blank
          have empty : percentFreeName "" = true := by rfl
          simp only [↓reduceIte, unnamed, Option.all_some, empty]
        · simp [blank]

theorem order_clean {layout : ResourceLayout} {keys : List OrderKey}
    (compiled : order operation layout targets = .ok keys) :
    (keys.all fun key => key.statement.command.clean) =
      operation.order.all fun item => item.expression.percentFree := by
  unfold order at compiled
  rcases bind_eq_ok compiled with ⟨chosen, chosenOk, compiled⟩
  rcases bind_eq_ok compiled with ⟨appended, appendedOk, compiled⟩
  cases compiled
  have items := all_eq_of_mapM_zipIdx (fun key => key.statement.command.clean)
    (fun item => item.expression.percentFree) chosenOk (by
      intro item index result compiled
      rcases bind_eq_ok compiled with ⟨statement, statementOk, compiled⟩
      cases compiled
      exact compile_clean numbered statementOk)
  have identity := all_eq_of_mapM (fun key => key.statement.command.clean) (fun _ => true)
    appendedOk (by
      intro name result listed compiled
      split at compiled
      · cases compiled
        simp [percentFreeName_identifier, show percentFreeName "t0" = true by rfl]
      · cases compiled)
  rw [List.all_append, items, identity]
  simp

theorem groups_clean {groups : List QueryStatement}
    (compiled : (operation.grouping.zipIdx.mapM fun grouping =>
      Query.compile targets (.grouping grouping.2) [] grouping.1) = .ok groups) :
    (groups.all fun group => group.command.clean) =
      operation.grouping.all Expression.percentFree :=
  all_eq_of_mapM_zipIdx _ _ compiled (compile_clean numbered)

theorem grouping_clean {group : QueryStatement}
    (compiled : grouping operation targets = .ok group) :
    group.command.clean = operation.grouping.all Expression.percentFree := by
  unfold grouping at compiled
  split at compiled
  · rename_i none
    cases compiled
    rw [List.isEmpty_iff.mp none]
    rfl
  · rcases bind_eq_ok compiled with ⟨groups, groupsOk, compiled⟩
    cases compiled
    have compiledGroups := groups_clean numbered groupsOk
    simpa [clean_text, clean_joined clean_comma, Function.comp_def] using compiledGroups

theorem aggregateProjection_clean {select : QueryStatement}
    (compiled : aggregateProjection operation targets = .ok select) :
    select.command.clean = operation.aggregatesPercentFree := by
  unfold aggregateProjection at compiled
  rcases bind_eq_ok compiled with ⟨groups, groupsOk, compiled⟩
  rcases bind_eq_ok compiled with ⟨aggregates, aggregatesOk, compiled⟩
  cases compiled
  have grouped := all_eq_of_mapM_zipIdx (fun group : QueryStatement => group.command.clean)
    Expression.percentFree groupsOk (by
      intro grouping index result compiled
      rcases bind_eq_ok compiled with ⟨statement, statementOk, compiled⟩
      cases compiled
      have unnamed : percentFreeName s!"group_{index}" = true :=
        percentFreeName_numbered (by rfl) index
      rw [aliased_clean, compile_clean numbered statementOk, unnamed, Bool.and_true])
  have aggregated := all_eq_of_mapM_zipIdx (fun part : QueryStatement => part.command.clean)
    (fun aggregate => aggregate.aggregate.percentFree && percentFreeName aggregate.name)
    aggregatesOk (by
      intro aggregate index result compiled
      rcases bind_eq_ok compiled with ⟨statement, statementOk, compiled⟩
      cases compiled
      rw [aliased_clean, compile_clean numbered statementOk])
  rw [commaSeparated_clean, List.all_append, grouped, aggregated]
  rfl

theorem joinClause_clean {join : Join} {index : Nat} {clause : QueryStatement}
    (compiled : translator.joinClause targets join index = .ok clause) :
    clause.command.clean = join.on.percentFree := by
  unfold joinClause at compiled
  rcases bind_eq_ok compiled with ⟨layout, _, compiled⟩
  rcases bind_eq_ok compiled with ⟨condition, conditionOk, compiled⟩
  rcases bind_eq_ok compiled with ⟨tableAlias, aliasOk, compiled⟩
  cases compiled
  have plain : percentFreeName tableAlias = true := numbered.clean _ (lookupKey_mem aliasOk)
  cases join.left <;>
    simp [clean_text, clean_conjunction, tableName_clean, plain, scopePredicate_clean plain,
      compile_clean numbered conditionOk]

theorem filterPredicate_clean {tableAlias : String} {predicate : QueryStatement}
    (plain : percentFreeName tableAlias = true)
    (compiled : translator.filterPredicate targets tableAlias operation.filter = .ok predicate) :
    predicate.command.clean = operation.filter.all Expression.percentFree := by
  unfold filterPredicate at compiled
  split at compiled
  · rename_i absent
    cases compiled
    rw [scopePredicate_clean plain, absent]
    rfl
  · rename_i filter given
    rcases bind_eq_ok compiled with ⟨condition, conditionOk, compiled⟩
    cases compiled
    simp [clean_conjunction, scopePredicate_clean plain, compile_clean numbered conditionOk, given]

end Numbered

theorem orderBy_clean (keys : List OrderKey) :
    Sql.clean (orderBy keys).command = keys.all fun key => key.statement.command.clean := by
  have suffix : ∀ key : OrderKey, (Piece.text key.suffix : Piece Origin).clean = true := by
    intro key
    unfold OrderKey.suffix
    split <;> rfl
  simp [orderBy, clean_text " ORDER BY ", clean_joined clean_comma, suffix, Function.comp_def]

theorem after_clean {key : OrderKey} (clean : key.statement.command.clean = true) (index : Nat)
    (value : Json) : Sql.clean (after key index value).command = true := by
  have operator : (Piece.text key.direction.after : Piece Origin).clean = true := by
    cases key.direction <;> rfl
  unfold after
  dsimp only
  split
  · cases key.nulls with
    | first => simp [clean, clean_text]
    | last => rfl
  · cases key.nulls with
    | first => simp [clean, operator, clean_text "(", clean_text " IS NOT NULL AND ",
        clean_text ")"]
    | last => simp [clean, operator, clean_text "(", clean_text " IS NULL OR (",
        clean_text " IS NOT NULL AND ", clean_text ")"]

/-- The keyset repeats the keys of the order and adds no text of its own. -/
theorem keysetPredicate_clean {keys : List (OrderKey × Json)}
    (clean : ∀ entry ∈ keys, entry.1.statement.command.clean = true) :
    Sql.clean (keysetPredicate keys).command = true := by
  rw [keysetPredicate, clean_disjunction, List.all_map, List.all_eq_true]
  intro index _
  apply (clean_conjunction _).trans
  apply List.all_eq_true.mpr
  intro part listed
  rcases List.mem_append.mp listed with inside | inside
  · rcases List.mem_map.mp inside with ⟨⟨⟨key, value⟩, position⟩, present, rfl⟩
    have found := List.mem_of_getElem? (List.mk_mem_zipIdx_iff_getElem?.mp present)
    have keyClean := clean _ (List.mem_of_mem_take found)
    simp [notDistinct, clean_text, keyClean]
  · rcases Option.map_eq_some_iff.mp (Option.mem_toList.mp inside) with ⟨entry, found, rfl⟩
    exact after_clean (clean entry (List.mem_of_getElem? found)) index entry.2

theorem keyset_clean {context : TranslationContext} {keys : List OrderKey}
    {predicate : QueryStatement} (clean : ∀ key ∈ keys, key.statement.command.clean = true)
    (compiled : translator.keyset operation context keys = .ok predicate) :
    predicate.command.clean = true := by
  unfold keyset at compiled
  split at compiled
  · rcases bind_eq_ok compiled with ⟨payload, _, compiled⟩
    split at compiled
    · exact nomatch compiled
    · cases compiled
      apply keysetPredicate_clean
      intro entry zipped
      exact clean entry.1 (List.of_mem_zip zipped).1
  · exact nomatch compiled

theorem cursorPredicate_clean {context : TranslationContext} {keys : List OrderKey}
    {predicate restricted : QueryStatement}
    (clean : ∀ key ∈ keys, key.statement.command.clean = true)
    (compiled : translator.cursorPredicate operation context keys predicate = .ok restricted) :
    restricted.command.clean = predicate.command.clean := by
  unfold cursorPredicate at compiled
  split at compiled
  · rcases bind_eq_ok compiled with ⟨keyset, keysetOk, compiled⟩
    cases compiled
    simp [clean_conjunction, keyset_clean clean keysetOk]
  · cases compiled
    rfl

theorem cursorColumns_clean {keys : List OrderKey} {names : List String}
    (length : names.length = keys.length) (plain : ∀ name ∈ names, percentFreeName name = true) :
    (((keys.zip names).map fun entry => aliased entry.1.statement entry.2).all fun column =>
      column.command.clean) = keys.all fun key => key.statement.command.clean := by
  induction keys generalizing names with
  | nil => rfl
  | cons key rest induction =>
      cases names with
      | nil => exact nomatch length
      | cons name names =>
          have others := induction (Nat.succ.inj length) fun other listed =>
            plain other (List.mem_cons_of_mem name listed)
          rw [List.zip_cons_cons, List.map_cons, List.all_cons, List.all_cons, others,
            aliased_clean, plain name List.mem_cons_self, Bool.and_true]

/-! ## Statements -/

section Statements

variable {targets : Targets} {layout : ResourceLayout} {tableAlias base : String}
  {source predicate : QueryStatement} (numbered : translator.Numbered targets)

include numbered

theorem aggregateStatement_clean {statement : QueryStatement}
    (compiled : aggregateStatement operation targets source predicate = .ok statement) :
    statement.command.clean =
      (operation.aggregatesPercentFree && (source.command.clean && predicate.command.clean)) := by
  unfold aggregateStatement at compiled
  rcases bind_eq_ok compiled with ⟨select, selectOk, compiled⟩
  rcases bind_eq_ok compiled with ⟨group, groupOk, compiled⟩
  cases compiled
  simp only [clean_append, clean_cons, clean_nil, clean_text,
    aggregateProjection_clean numbered selectOk, grouping_clean numbered groupOk,
    QueryOperation.aggregatesPercentFree]
  cases operation.grouping.all Expression.percentFree <;> simp [Bool.and_assoc]

theorem recordStatement_clean {context : TranslationContext}
    {record : QueryStatement × List String} (plain : percentFreeName tableAlias = true)
    (first : operation.targets.head? = some base)
    (given : translator.settings.layout base = some layout)
    (compiled : translator.recordStatement operation context layout tableAlias targets source
      predicate = .ok record) :
    record.1.command.clean =
      (operation.columnsPercentFree translator.settings && (source.command.clean &&
        (predicate.command.clean &&
          operation.order.all fun item => item.expression.percentFree))) := by
  unfold recordStatement at compiled
  rcases bind_eq_ok compiled with ⟨keys, keysOk, compiled⟩
  rcases bind_eq_ok compiled with ⟨select, selectOk, compiled⟩
  rcases bind_eq_ok compiled with ⟨restricted, restrictedOk, compiled⟩
  cases compiled
  have ordered := order_clean numbered keysOk
  have selected : select.command.clean =
      (operation.columnsPercentFree translator.settings &&
        operation.order.all fun item => item.expression.percentFree) := by
    unfold recordProjection at selectOk
    rcases bind_eq_ok selectOk with ⟨columns, columnsOk, selectOk⟩
    cases selectOk
    have names : ∀ name ∈ (List.range keys.length).map fun index => s!"__cursor_{index}",
        percentFreeName name = true := by
      intro name listed
      rcases List.mem_map.mp listed with ⟨index, _, rfl⟩
      exact percentFreeName_numbered (by rfl) index
    rw [commaSeparated_clean, List.all_append, cursorColumns_clean (by simp) names,
      ordered,
      selectedColumns_clean numbered plain first given columnsOk]
  simp only [clean_append, clean_cons, clean_nil, clean_text, clean_slot, selected,
    orderBy_clean, ordered]
  cases sorted : operation.order.all fun item => item.expression.percentFree with
  | false => simp
  | true =>
      rw [sorted] at ordered
      simp [cursorPredicate_clean (List.all_eq_true.mp ordered) restrictedOk, Bool.and_assoc]

end Statements

theorem targets_layout {targets : Targets} {base : String} {layout : ResourceLayout}
    (collected : translator.targets operation = .ok targets)
    (found : lookupKey targets.layouts base = .ok layout) :
    translator.settings.layout base = some layout :=
  (targets_numbered collected).layouts _ (lookupKey_mem found)

theorem compileSelect_clean {context : TranslationContext} {compiled : CompiledQuery}
    (accepted : translator.compileSelect operation context = .ok compiled) :
    compiled.statement.command.clean =
      if operation.kind = .aggregate then
        operation.aggregatesPercentFree &&
          ((operation.joins.all fun join => join.on.percentFree) &&
            operation.filter.all Expression.percentFree)
      else
        operation.columnsPercentFree translator.settings &&
          ((operation.joins.all fun join => join.on.percentFree) &&
            (operation.filter.all Expression.percentFree &&
              operation.order.all fun item => item.expression.percentFree)) := by
  unfold compileSelect at accepted
  rcases bind_eq_ok accepted with ⟨targets, targetsOk, accepted⟩
  rcases bind_eq_ok accepted with ⟨base, baseOk, accepted⟩
  rcases bind_eq_ok accepted with ⟨layout, layoutOk, accepted⟩
  rcases bind_eq_ok accepted with ⟨tableAlias, aliasOk, accepted⟩
  rcases bind_eq_ok accepted with ⟨joins, joinsOk, accepted⟩
  rcases bind_eq_ok accepted with ⟨predicate, predicateOk, accepted⟩
  have numbered := targets_numbered targetsOk
  have plain : percentFreeName tableAlias = true := numbered.clean _ (lookupKey_mem aliasOk)
  have clauses := all_eq_of_mapM_zipIdx (fun clause : QueryStatement => clause.command.clean)
    (fun join => join.on.percentFree) joinsOk (joinClause_clean numbered)
  have source : Sql.clean ([Piece.text " FROM "] ++ tableName translator.settings layout ++
      [Piece.text " AS ", .name tableAlias] ++ (joins.map BoundStatement.command).flatten) =
        operation.joins.all fun join => join.on.percentFree := by
    rw [← clauses]
    simp [clean_text, tableName_clean, plain, Function.comp_def]
  have restricted := filterPredicate_clean numbered plain predicateOk
  split at accepted
  · rename_i aggregates
    rcases bind_eq_ok accepted with ⟨statement, statementOk, accepted⟩
    cases accepted
    rw [if_pos aggregates, aggregateStatement_clean numbered statementOk, source, restricted]
  · rename_i records
    rcases bind_eq_ok accepted with ⟨record, recordOk, accepted⟩
    cases accepted
    have first : operation.targets.head? = some base := by
      unfold baseTarget at baseOk
      split at baseOk
      · rename_i listed
        cases baseOk
        rw [listed, List.head?_cons]
      · exact nomatch baseOk
    rw [if_neg records, recordStatement_clean numbered plain first
      (targets_layout targetsOk layoutOk) recordOk, source, restricted]

/-! ## Traversal -/

theorem relationScope_clean {traversal : Traversal} {ref : String} {index : Nat}
    {layout : ResourceLayout} {scope : QueryStatement}
    (compiled : translator.relationScope traversal ref index layout = .ok scope) :
    scope.command.clean =
      (traversal.relationPredicates.lookup ref).all Expression.percentFree := by
  have plain : percentFreeName "r" = true := by rfl
  unfold relationScope at compiled
  split at compiled
  · rename_i absent
    cases compiled
    rw [scopePredicate_clean plain, absent]
    rfl
  · rename_i predicate given
    rcases bind_eq_ok compiled with ⟨condition, conditionOk, compiled⟩
    cases compiled
    have aliases : Targets.Clean ⟨[(ref, "r")], [(ref, layout)]⟩ := by
      intro entry listed
      rw [List.mem_singleton.mp listed]
      exact plain
    have conditionClean := (compile_compiles [] predicate condition conditionOk).clean_eq aliases
    simp [clean_conjunction, scopePredicate_clean plain, conditionClean, given]

theorem edgeColumns_clean : Sql.clean forwardColumns = true ∧ Sql.clean reverseColumns = true := by
  simp only [forwardColumns, reverseColumns, clean_cons, clean_nil, Bool.and_true,
    Bool.and_eq_true]
  and_intros
  all_goals exact clean_ofList rfl rfl

theorem edgeParts_clean {traversal : Traversal} {ref : String} {index : Nat}
    {edges : List QueryStatement}
    (compiled : translator.edgeParts traversal ref index = .ok edges) :
    (edges.all fun edge => edge.command.clean) =
      (traversal.relationPredicates.lookup ref).all Expression.percentFree := by
  unfold edgeParts at compiled
  rcases bind_eq_ok compiled with ⟨layout, _, compiled⟩
  split at compiled
  · exact nomatch compiled
  · rename_i relation _
    rcases bind_eq_ok compiled with ⟨scope, scopeOk, compiled⟩
    cases compiled
    have part : ∀ columns, Sql.clean columns = true →
        Sql.clean (translator.edgePart columns index ref layout scope).command =
          scope.command.clean := by
      intro columns plain
      simp [edgePart, plain, clean_text "SELECT ", clean_text " AS r WHERE ", tableName_clean]
    have forward := part forwardColumns (edgeColumns_clean).1
    have reverse := part reverseColumns (edgeColumns_clean).2
    rw [← relationScope_clean scopeOk, List.all_append]
    cases traversal.direction <;> cases relation.directed <;> simp [forward, reverse]

set_option maxRecDepth 4000 in
theorem walk_clean : Sql.clean (walkStart ++ walkEnd) = true := by
  simp only [walkStart, walkEnd, List.cons_append, List.nil_append, clean_cons, clean_slot,
    clean_nil, Bool.true_and, Bool.and_true, Bool.and_eq_true]
  and_intros
  all_goals exact clean_ofList rfl rfl

theorem traversalStatement_clean {traversal : Traversal} (edges : List QueryStatement) :
    Sql.clean (translator.traversalStatement operation traversal edges).command =
      edges.all fun edge => edge.command.clean := by
  have union : (Piece.text " UNION ALL " : Piece Origin).clean = true := clean_ofList rfl rfl
  have start : (Piece.text "WITH RECURSIVE edges AS (" : Piece Origin).clean = true :=
    clean_ofList rfl rfl
  have walk := walk_clean
  rw [clean_append] at walk
  simp only [traversalStatement, clean_append, clean_cons, clean_nil, start,
    clean_joined union, Bool.true_and, Bool.and_true, Bool.and_assoc, walk, List.all_map,
    Function.comp_def]

theorem compileTraversal_clean {traversal : Traversal} {context : TranslationContext}
    {compiled : CompiledQuery}
    (accepted : translator.compileTraversal operation traversal context = .ok compiled) :
    compiled.statement.command.clean = traversal.percentFree := by
  rcases compileTraversal_cases accepted with ⟨edges, edgesOk, rfl⟩
  have each := all_eq_of_mapM_zipIdx
    (fun part : List QueryStatement => part.all fun edge => edge.command.clean)
    (fun ref => (traversal.relationPredicates.lookup ref).all Expression.percentFree) edgesOk
    edgeParts_clean
  rw [traversalStatement_clean, List.all_flatten, each]
  rfl

theorem compile_clean_eq {plan : Plan} {context : TranslationContext}
    {compiled : CompiledQuery} (accepted : translator.compile plan context = .ok compiled) :
    compiled.statement.command.clean = plan.percentFree translator.settings := by
  rcases compile_cases accepted with ⟨empty, equal⟩ |
    ⟨full, traverses, traversal, given, walked⟩ | ⟨full, walks, mutates, selected⟩
  · have text : (Piece.text "SELECT NULL WHERE FALSE" : Piece Origin).clean = true :=
      clean_ofList rfl rfl
    rw [equal]
    simp [Plan.percentFree, empty, text]
  · simp [Plan.percentFree, full, traverses, given, compileTraversal_clean walked]
  · rw [compileSelect_clean selected]
    cases kind : plan.operation.kind <;> simp_all [Plan.percentFree]

/-- The driver accepts the statement of a plan, and finds no placeholder that
is not a slot, exactly when the plan writes no percent sign of its own. -/
theorem driver_safe_iff {plan : Plan} {context : TranslationContext}
    {compiled : CompiledQuery} (accepted : translator.compile plan context = .ok compiled) :
    DriverSafe compiled.statement ↔ plan.percentFree translator.settings = true := by
  rw [driverSafe_iff (compile_plan_supplied accepted).aligned, compile_clean_eq accepted]

theorem driver_safe_scan : ∃ compiled,
    workTranslator.compile (workScan (.binary .eq priority (.literal (.int 2)))) workContext =
      .ok compiled ∧ DriverSafe compiled.statement := by
  have accepted : workTranslator.compile
      (workScan (.binary .eq priority (.literal (.int 2)))) workContext = .ok _ := rfl
  exact ⟨_, accepted, (driver_safe_iff accepted).mpr (by rfl)⟩

/-- The driver takes the operator of a `modulo` for a placeholder it does not
know. -/
theorem modulo_rejected_by_driver : ∃ compiled,
    workTranslator.compile (workScan (.binary .eq (.binary .modulo priority
      (.literal (.int 2))) (.literal (.int 0)))) workContext = .ok compiled ∧
        placeholders compiled.sql = none ∧ ¬ DriverSafe compiled.statement := by
  exact ⟨_, rfl, by rfl, not_driverSafe (by rfl)⟩

end PostgreSQLQueryTranslator

end MeridianPostgreSQL.Query
