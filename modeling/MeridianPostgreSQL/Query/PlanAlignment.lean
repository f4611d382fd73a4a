import MeridianPostgreSQL.Query.Alignment

/-! # Alignment of translated plans

Every parameter of a translated plan is the value of the part of the operation
that its slot stands for. -/

namespace MeridianPostgreSQL.Query

open Settings

/-- The expression of an operation at a site. -/
def QueryOperation.expressionAt (operation : QueryOperation) : Site → Option Expression
  | .join index => operation.joins[index]?.map Join.on
  | .filter => operation.filter
  | .projection index => operation.projection[index]?.map Projection.expression
  | .grouping index => operation.grouping[index]?
  | .aggregate index => operation.aggregates[index]?.map NamedAggregate.aggregate
  | .order index => operation.order[index]?.map OrderItem.expression
  | .relation index => operation.traversal.bind fun traversal =>
      traversal.relationCollections[index]?.bind fun ref =>
        traversal.relationPredicates.lookup ref
  | .condition => none

/-- What an operation supplies for a slot. A scope column is marked, and its
value is filled in when the statement is executed. -/
inductive Supplies (translator : PostgreSQLQueryTranslator) (operation : QueryOperation) :
    Origin → Json → Prop
  | expression {site path part root value} (given : operation.expressionAt site = some root)
      (contributes : Contributes site [] root (.expression site path part) value) :
      Supplies translator operation (.expression site path part) value
  | scope {tableAlias column} (listed : column ∈ translator.settings.scopeColumns) :
      Supplies translator operation (.scope tableAlias column)
        (.object [("$scope", .string column)])
  | cursor {signer cursor payload index value}
      (signs : translator.cursorSigner = some signer)
      (given : operation.page.cursor = some cursor)
      (verified : signer.verify cursor = .ok payload)
      (held : payload.sortTuple[index]? = some value) :
      Supplies translator operation (.cursor index) value
  | limit : Supplies translator operation .limit (.int (operation.page.size + 1))
  | pathLimit {traversal} (given : operation.traversal = some traversal) :
      Supplies translator operation .limit
        (.int (min operation.page.size operation.budget.maxReturnedPaths + 1))
  | relationRef {traversal index ref} (given : operation.traversal = some traversal)
      (held : traversal.relationCollections[index]? = some ref) :
      Supplies translator operation (.relationRef index) (.string ref)
  | startCollection {traversal} (given : operation.traversal = some traversal) :
      Supplies translator operation .startCollection (.string traversal.startCollection)
  | startId {traversal} (given : operation.traversal = some traversal) :
      Supplies translator operation .startId
        (.string (dumps translator.spell traversal.startId))
  | minDepth {traversal} (given : operation.traversal = some traversal) :
      Supplies translator operation .minDepth (.int traversal.minDepth)
  | maxDepth {traversal} (given : operation.traversal = some traversal) :
      Supplies translator operation .maxDepth (.int traversal.maxDepth)

def Site.isRelation : Site → Bool
  | .relation _ => true
  | _ => false

/-- The targets that an expression of an operation is compiled with. -/
inductive TargetsAt (translator : PostgreSQLQueryTranslator) (operation : QueryOperation) :
    Site → Targets → Prop
  | selection {site targets} (selects : site.isRelation = false)
      (found : translator.targets operation = .ok targets) :
      TargetsAt translator operation site targets
  | relation {traversal index ref layout} (given : operation.traversal = some traversal)
      (held : traversal.relationCollections[index]? = some ref)
      (found : translator.layout ref = .ok layout) :
      TargetsAt translator operation (.relation index) ⟨[(ref, "r")], [(ref, layout)]⟩

def Origin.isExpression : Origin → Bool
  | .expression _ _ _ => true
  | _ => false

/-- What is known of the values of every compiled expression, and of all others
that an operation supplies. -/
structure Covers (translator : PostgreSQLQueryTranslator) (operation : QueryOperation)
    (supplies : Origin → Json → Prop) : Prop where
  expression : ∀ {site root targets statement}, operation.expressionAt site = some root →
    TargetsAt translator operation site targets →
    compile targets site [] root = .ok statement → Supplied supplies statement
  other : ∀ {origin value}, origin.isExpression = false →
    Supplies translator operation origin value → supplies origin value

/-! ## Parts of a statement -/

theorem forall_of_mapM {α β : Type} {items : List α} {f : α → Compiled β} {results : List β}
    (property : β → Prop) (equal : items.mapM f = .ok results)
    (each : ∀ {item result}, item ∈ items → f item = .ok result → property result) :
    ∀ result ∈ results, property result := by
  intro result listed
  have mapped := mapM_eq_ok equal
  rcases exists_index mapped.length_eq listed with ⟨position, item, found, held⟩
  rcases List.getElem?_eq_some_iff.mp found with ⟨first, rfl⟩
  rcases List.getElem?_eq_some_iff.mp held with ⟨second, rfl⟩
  exact each (List.getElem_mem first) (mapped.get first second)

/-- What holds of each result of a list that is compiled with its indexes. -/
theorem forall_of_mapM_zipIdx {α β : Type} {items : List α} {f : α × Nat → Compiled β}
    {results : List β} (property : β → Prop) (equal : items.zipIdx.mapM f = .ok results)
    (each : ∀ {item index result}, items[index]? = some item → f (item, index) = .ok result →
      property result) : ∀ result ∈ results, property result := by
  apply forall_of_mapM property equal
  rintro ⟨item, index⟩ result listed compiled
  exact each (List.mk_mem_zipIdx_iff_getElem?.mp listed) compiled

section Parts

variable {supplies : Origin → Json → Prop}

theorem aliased_supplied {statement : QueryStatement} {name : String}
    (supplied : Supplied supplies statement) : Supplied supplies (aliased statement name) :=
  ⟨by simp [aliased, supplied.aligned.slots_eq], supplied.values⟩

theorem commaSeparated_supplied {parts : List QueryStatement}
    (each : ∀ part ∈ parts, Supplied supplies part) :
    Supplied supplies (commaSeparated parts) :=
  ⟨by simpa [commaSeparated] using slots_commands each, supplied_all each⟩

theorem slots_fieldColumn (tableAlias : String) (field : FieldLayout) :
    slots (fieldColumn tableAlias field) = [] := by
  unfold fieldColumn
  split <;> simp

theorem recordColumns_supplied (layout : ResourceLayout) (tableAlias : String) :
    ∀ column ∈ recordColumns layout tableAlias, Supplied supplies column := by
  intro column member
  rcases List.mem_append.mp member with inside | inside
  · rcases List.mem_map.mp inside with ⟨field, _, rfl⟩
    exact aliased_supplied ⟨slots_fieldColumn tableAlias field, by simp⟩
  · rcases List.mem_map.mp inside with ⟨metadata, _, rfl⟩
    exact aliased_supplied ⟨slots_ident _, by simp⟩

theorem orderBy_supplied {order : List OrderKey}
    (each : ∀ key ∈ order, Supplied supplies key.statement) :
    Supplied supplies (orderBy order) := by
  have statements : ∀ statement ∈ order.map OrderKey.statement,
      Supplied supplies statement := by
    intro statement listed
    rcases List.mem_map.mp listed with ⟨key, member, rfl⟩
    exact each key member
  constructor
  · have carried := slots_commands statements
    simp only [orderBy, aligned_mk, slots_append, slots_text, slots_nil, slots_joined,
      List.nil_append]
    rw [← carried]
    simp [List.flatMap_map]
  · exact supplied_all statements

theorem after_supplied {key : OrderKey} {index : Nat} {value : Json}
    (supplied : Supplied supplies key.statement) (cursor : supplies (.cursor index) value) :
    Supplied supplies (after key index value) := by
  have parameter : ∀ parameter ∈ [(⟨.cursor index, value⟩ : Parameter Origin Json)],
      supplies parameter.origin parameter.value := List.forall_mem_singleton.mpr cursor
  have slotted := supplied.aligned.slots_eq
  unfold after
  dsimp only
  split
  · cases key.nulls with
    | first => exact ⟨by simp [slotted], supplied.values⟩
    | last => exact ⟨rfl, by simp⟩
  · cases key.nulls with
    | first =>
        exact ⟨by simp [slotted], List.forall_mem_append.mpr
          ⟨List.forall_mem_append.mpr ⟨supplied.values, supplied.values⟩, parameter⟩⟩
    | last =>
        exact ⟨by simp [slotted], List.forall_mem_append.mpr
          ⟨List.forall_mem_append.mpr
            ⟨List.forall_mem_append.mpr ⟨supplied.values, supplied.values⟩,
              supplied.values⟩, parameter⟩⟩

theorem notDistinct_supplied {key : OrderKey} {index : Nat} {value : Json}
    (supplied : Supplied supplies key.statement) (cursor : supplies (.cursor index) value) :
    Supplied supplies (notDistinct key index value) :=
  ⟨by simp [notDistinct, supplied.aligned.slots_eq], List.forall_mem_append.mpr
    ⟨supplied.values, List.forall_mem_singleton.mpr cursor⟩⟩

theorem keysetPredicate_supplied {keys : List (OrderKey × Json)}
    (each : ∀ {index key value}, keys[index]? = some (key, value) →
      Supplied supplies key.statement ∧ supplies (.cursor index) value) :
    Supplied supplies (keysetPredicate keys) := by
  apply Supplied.disjunction
  intro branch listed
  rcases List.mem_map.mp listed with ⟨index, _, rfl⟩
  apply Supplied.conjunction
  intro part member
  rcases List.mem_append.mp member with inside | inside
  · rcases List.mem_map.mp inside with ⟨⟨⟨key, value⟩, position⟩, present, rfl⟩
    have found := List.mk_mem_zipIdx_iff_getElem?.mp present
    rw [List.getElem?_take] at found
    split at found
    · exact notDistinct_supplied (each found).1 (each found).2
    · exact nomatch found
  · rcases Option.map_eq_some_iff.mp (Option.mem_toList.mp inside) with
      ⟨⟨key, value⟩, found, rfl⟩
    exact after_supplied (each found).1 (each found).2

end Parts

/-! ## Translation -/

namespace PostgreSQLQueryTranslator

variable {translator : PostgreSQLQueryTranslator} {operation : QueryOperation}

theorem supplies_covers : Covers translator operation (Supplies translator operation) where
  expression := by
    intro site root targets statement given _ compiled
    apply (compile_compiles [] root statement compiled).carries.imp
    intro origin value contributes
    rcases contributes with ⟨rest, part, inner, contributed, rfl, reached, binds, encoded⟩
    exact .expression given ⟨rest, part, inner, contributed, rfl, reached, binds, encoded⟩
  other := fun _ supplied => supplied

/-- An accepted traversal is one statement over the edges of all its relations. -/
theorem compileTraversal_cases {traversal : Traversal} {context : TranslationContext}
    {compiled : CompiledQuery}
    (accepted : translator.compileTraversal operation traversal context = .ok compiled) :
    ∃ edges, traversal.relationCollections.zipIdx.mapM (fun ref =>
        translator.edgeParts traversal ref.1 ref.2) = .ok edges ∧
      compiled = ⟨translator.traversalStatement operation traversal edges.flatten,
        context.planFingerprint, operation.resultShape, operation.budget.maxNormalizedBytes,
        operation.page.size, false, false, [], none⟩ := by
  unfold compileTraversal at accepted
  obtain ⟨_, accepted⟩ := check_eq_ok accepted
  obtain ⟨_, accepted⟩ := check_eq_ok accepted
  obtain ⟨_, accepted⟩ := check_eq_ok accepted
  obtain ⟨_, accepted⟩ := check_eq_ok accepted
  obtain ⟨_, accepted⟩ := check_eq_ok accepted
  obtain ⟨edges, edgesOk, accepted⟩ := bind_eq_ok accepted
  exact ⟨edges, edgesOk, (Except.ok.inj accepted).symm⟩

/-- An accepted plan is empty, a traversal or a selection. -/
theorem compile_cases {plan : Plan} {context : TranslationContext} {compiled : CompiledQuery}
    (accepted : translator.compile plan context = .ok compiled) :
    (plan.emptyResult = true ∧
      compiled.statement = ⟨[.text "SELECT NULL WHERE FALSE"], []⟩) ∨
    (plan.emptyResult = false ∧ plan.operation.kind = .traverse ∧
      ∃ traversal, plan.operation.traversal = some traversal ∧
        translator.compileTraversal plan.operation traversal context = .ok compiled) ∨
    (plan.emptyResult = false ∧ plan.operation.kind ≠ .traverse ∧
      plan.operation.kind ≠ .mutation ∧
        translator.compileSelect plan.operation context = .ok compiled) := by
  unfold compile at accepted
  dsimp only at accepted
  repeat' split at accepted
  all_goals try contradiction
  · rename_i empty
    cases accepted
    exact .inl ⟨empty, rfl⟩
  · rename_i full _ traverses _ traversal given
    exact .inr (.inl ⟨by simpa using full, traverses, traversal, given, accepted⟩)
  · rename_i full _ walks mutates
    exact .inr (.inr ⟨by simpa using full, walks, mutates, accepted⟩)

section Covered

variable {supplies : Origin → Json → Prop} (covers : Covers translator operation supplies)

include covers

theorem scopePredicate_supplied (tableAlias : String) :
    Supplied supplies (translator.scopePredicate tableAlias) := by
  constructor
  · simp [scopePredicate, List.flatMap_map, Function.comp_def, ← List.map_eq_flatMap]
  · intro parameter member
    rcases List.mem_map.mp member with ⟨column, listed, rfl⟩
    exact covers.other rfl (.scope listed)

theorem joinClause_supplied {targets : Targets} {join : Join} {index : Nat}
    {clause : QueryStatement} (targetsOk : translator.targets operation = .ok targets)
    (given : operation.joins[index]? = some join)
    (compiled : translator.joinClause targets join index = .ok clause) :
    Supplied supplies clause := by
  unfold joinClause at compiled
  rcases bind_eq_ok compiled with ⟨layout, _, compiled⟩
  rcases bind_eq_ok compiled with ⟨condition, conditionOk, compiled⟩
  rcases bind_eq_ok compiled with ⟨tableAlias, _, compiled⟩
  cases compiled
  have root : operation.expressionAt (.join index) = some join.on := by
    simp [QueryOperation.expressionAt, given]
  have predicate : Supplied supplies
      (conjunction [condition, translator.scopePredicate tableAlias]) :=
    .conjunction (.pair (covers.expression root (.selection rfl targetsOk) conditionOk)
      (scopePredicate_supplied covers tableAlias))
  exact ⟨by simp [tableName, predicate.aligned.slots_eq], predicate.values⟩

theorem filterPredicate_supplied {targets : Targets} {tableAlias : String}
    {predicate : QueryStatement}
    (targetsOk : translator.targets operation = .ok targets)
    (compiled : translator.filterPredicate targets tableAlias operation.filter = .ok predicate) :
    Supplied supplies predicate := by
  unfold filterPredicate at compiled
  split at compiled
  · cases compiled
    exact scopePredicate_supplied covers tableAlias
  · rename_i filter given
    rcases bind_eq_ok compiled with ⟨condition, conditionOk, compiled⟩
    cases compiled
    have root : operation.expressionAt .filter = some filter := given
    exact .conjunction
      (.pair (scopePredicate_supplied covers tableAlias)
        (covers.expression root (.selection rfl targetsOk) conditionOk))

theorem selectedColumns_supplied {layout : ResourceLayout} {tableAlias : String}
    {targets : Targets} {columns : List QueryStatement}
    (targetsOk : translator.targets operation = .ok targets)
    (compiled : selectedColumns operation layout tableAlias targets = .ok columns) :
    ∀ column ∈ columns, Supplied supplies column := by
  unfold selectedColumns at compiled
  split at compiled
  · cases compiled
    exact recordColumns_supplied layout tableAlias
  · apply forall_of_mapM_zipIdx (Supplied supplies) compiled
    intro projection index result given compiled
    rcases bind_eq_ok compiled with ⟨statement, statementOk, compiled⟩
    cases compiled
    have root : operation.expressionAt (.projection index) = some projection.expression := by
      simp [QueryOperation.expressionAt, given]
    exact aliased_supplied (covers.expression root (.selection rfl targetsOk) statementOk)

theorem recordProjection_supplied {layout : ResourceLayout} {tableAlias : String}
    {targets : Targets} {order : List OrderKey} {cursorFields : List String}
    {select : QueryStatement}
    (targetsOk : translator.targets operation = .ok targets)
    (ordered : ∀ key ∈ order, Supplied supplies key.statement)
    (compiled : recordProjection operation layout tableAlias targets order cursorFields =
      .ok select) :
    Supplied supplies select := by
  unfold recordProjection at compiled
  rcases bind_eq_ok compiled with ⟨columns, columnsOk, compiled⟩
  cases compiled
  apply commaSeparated_supplied
  intro part listed
  rcases List.mem_append.mp listed with inside | inside
  · exact selectedColumns_supplied covers targetsOk columnsOk part inside
  · rcases List.mem_map.mp inside with ⟨⟨key, field⟩, zipped, rfl⟩
    exact aliased_supplied (ordered key (List.of_mem_zip zipped).1)

theorem groups_supplied {targets : Targets} {groups : List QueryStatement}
    (targetsOk : translator.targets operation = .ok targets)
    (compiled : (operation.grouping.zipIdx.mapM fun grouping =>
      Query.compile targets (.grouping grouping.2) [] grouping.1) = .ok groups) :
    ∀ group ∈ groups, Supplied supplies group := by
  apply forall_of_mapM_zipIdx (Supplied supplies) compiled
  intro grouping index result given compiled
  have root : operation.expressionAt (.grouping index) = some grouping := given
  exact covers.expression root (.selection rfl targetsOk) compiled

theorem aggregateProjection_supplied {targets : Targets} {select : QueryStatement}
    (targetsOk : translator.targets operation = .ok targets)
    (compiled : aggregateProjection operation targets = .ok select) :
    Supplied supplies select := by
  unfold aggregateProjection at compiled
  rcases bind_eq_ok compiled with ⟨groups, groupsOk, compiled⟩
  rcases bind_eq_ok compiled with ⟨aggregates, aggregatesOk, compiled⟩
  cases compiled
  apply commaSeparated_supplied
  intro part listed
  rcases List.mem_append.mp listed with inside | inside
  · apply forall_of_mapM_zipIdx (Supplied supplies) groupsOk _ part inside
    intro grouping index result given compiled
    rcases bind_eq_ok compiled with ⟨statement, statementOk, compiled⟩
    cases compiled
    have root : operation.expressionAt (.grouping index) = some grouping := given
    exact aliased_supplied (covers.expression root (.selection rfl targetsOk) statementOk)
  · apply forall_of_mapM_zipIdx (Supplied supplies) aggregatesOk _ part inside
    intro aggregate index result given compiled
    rcases bind_eq_ok compiled with ⟨statement, statementOk, compiled⟩
    cases compiled
    have root : operation.expressionAt (.aggregate index) = some aggregate.aggregate := by
      simp [QueryOperation.expressionAt, given]
    exact aliased_supplied (covers.expression root (.selection rfl targetsOk) statementOk)

theorem grouping_supplied {targets : Targets} {group : QueryStatement}
    (targetsOk : translator.targets operation = .ok targets)
    (compiled : grouping operation targets = .ok group) :
    Supplied supplies group := by
  unfold grouping at compiled
  split at compiled
  · cases compiled
    exact ⟨rfl, by simp⟩
  · rcases bind_eq_ok compiled with ⟨groups, groupsOk, compiled⟩
    cases compiled
    have each : ∀ group ∈ groups, Supplied supplies group :=
      groups_supplied covers targetsOk groupsOk
    exact ⟨by simpa using slots_commands each, supplied_all each⟩

theorem order_supplied {layout : ResourceLayout} {targets : Targets} {keys : List OrderKey}
    (targetsOk : translator.targets operation = .ok targets)
    (compiled : order operation layout targets = .ok keys) :
    ∀ key ∈ keys, Supplied supplies key.statement := by
  unfold order at compiled
  rcases bind_eq_ok compiled with ⟨chosen, chosenOk, compiled⟩
  rcases bind_eq_ok compiled with ⟨appended, appendedOk, compiled⟩
  cases compiled
  intro key listed
  rcases List.mem_append.mp listed with inside | inside
  · apply forall_of_mapM_zipIdx (fun key => Supplied supplies key.statement)
      chosenOk _ key inside
    intro item index result given compiled
    rcases bind_eq_ok compiled with ⟨statement, statementOk, compiled⟩
    cases compiled
    have root : operation.expressionAt (.order index) = some item.expression := by
      simp [QueryOperation.expressionAt, given]
    exact covers.expression root (.selection rfl targetsOk) statementOk
  · apply forall_of_mapM (fun key => Supplied supplies key.statement)
      appendedOk _ key inside
    intro name result member compiled
    split at compiled
    · cases compiled
      exact ⟨by simp, by simp⟩
    · cases compiled

theorem keyset_supplied {context : TranslationContext} {keys : List OrderKey}
    {predicate : QueryStatement}
    (ordered : ∀ key ∈ keys, Supplied supplies key.statement)
    (compiled : translator.keyset operation context keys = .ok predicate) :
    Supplied supplies predicate := by
  unfold keyset at compiled
  split at compiled
  · rename_i signer cursor signs given
    rcases bind_eq_ok compiled with ⟨payload, verified, compiled⟩
    split at compiled
    · exact nomatch compiled
    · cases compiled
      apply keysetPredicate_supplied
      intro index key value held
      rcases List.getElem?_zip_eq_some.mp held with ⟨found, sorted⟩
      exact ⟨ordered key (List.mem_of_getElem? found),
        covers.other rfl (.cursor signs given verified sorted)⟩
  · exact nomatch compiled

theorem aggregateStatement_supplied {targets : Targets}
    {source predicate statement : QueryStatement}
    (targetsOk : translator.targets operation = .ok targets)
    (source_supplied : Supplied supplies source)
    (predicate_supplied : Supplied supplies predicate)
    (compiled : aggregateStatement operation targets source predicate = .ok statement) :
    Supplied supplies statement := by
  unfold aggregateStatement at compiled
  rcases bind_eq_ok compiled with ⟨select, selectOk, compiled⟩
  rcases bind_eq_ok compiled with ⟨group, groupOk, compiled⟩
  cases compiled
  have selected : Supplied supplies select :=
    aggregateProjection_supplied covers targetsOk selectOk
  have grouped : Supplied supplies group :=
    grouping_supplied covers targetsOk groupOk
  constructor
  · simp [selected.aligned.slots_eq, source_supplied.aligned.slots_eq,
      predicate_supplied.aligned.slots_eq, grouped.aligned.slots_eq]
  · simp only [List.forall_mem_append]
    exact ⟨⟨⟨selected.values, source_supplied.values⟩, predicate_supplied.values⟩,
      grouped.values⟩

theorem recordStatement_supplied {context : TranslationContext} {layout : ResourceLayout}
    {tableAlias : String} {targets : Targets} {source predicate : QueryStatement}
    {record : QueryStatement × List String}
    (targetsOk : translator.targets operation = .ok targets)
    (source_supplied : Supplied supplies source)
    (predicate_supplied : Supplied supplies predicate)
    (compiled : translator.recordStatement operation context layout tableAlias targets source
      predicate = .ok record) :
    Supplied supplies record.1 := by
  unfold recordStatement at compiled
  rcases bind_eq_ok compiled with ⟨order, orderOk, compiled⟩
  rcases bind_eq_ok compiled with ⟨select, selectOk, compiled⟩
  rcases bind_eq_ok compiled with ⟨restricted, restrictedOk, compiled⟩
  cases compiled
  have ordered : ∀ key ∈ order, Supplied supplies key.statement :=
    order_supplied covers targetsOk orderOk
  have selected := recordProjection_supplied covers targetsOk ordered selectOk
  have sorted := orderBy_supplied ordered
  have kept : Supplied supplies restricted := by
    unfold cursorPredicate at restrictedOk
    split at restrictedOk
    · rcases bind_eq_ok restrictedOk with ⟨keyset, keysetOk, equal⟩
      cases equal
      exact .conjunction (.pair predicate_supplied (keyset_supplied covers ordered keysetOk))
    · cases restrictedOk
      exact predicate_supplied
  constructor
  · simp [selected.aligned.slots_eq, source_supplied.aligned.slots_eq, kept.aligned.slots_eq,
      sorted.aligned.slots_eq]
  · simp only [List.forall_mem_append, List.forall_mem_singleton]
    exact ⟨⟨⟨⟨selected.values, source_supplied.values⟩, kept.values⟩, sorted.values⟩,
      covers.other rfl .limit⟩

theorem compileSelect_supplied {context : TranslationContext} {compiled : CompiledQuery}
    (accepted : translator.compileSelect operation context = .ok compiled) :
    Supplied supplies compiled.statement := by
  unfold compileSelect at accepted
  rcases bind_eq_ok accepted with ⟨targets, targetsOk, accepted⟩
  rcases bind_eq_ok accepted with ⟨base, _, accepted⟩
  rcases bind_eq_ok accepted with ⟨layout, _, accepted⟩
  rcases bind_eq_ok accepted with ⟨tableAlias, _, accepted⟩
  rcases bind_eq_ok accepted with ⟨joins, joinsOk, accepted⟩
  rcases bind_eq_ok accepted with ⟨predicate, predicateOk, accepted⟩
  have clauses : ∀ clause ∈ joins, Supplied supplies clause :=
    forall_of_mapM_zipIdx _ joinsOk (joinClause_supplied covers targetsOk)
  have restricted := filterPredicate_supplied covers targetsOk predicateOk
  have source : Supplied supplies
      ⟨[Piece.text " FROM "] ++ tableName translator.settings layout ++
        [Piece.text " AS ", .name tableAlias] ++ (joins.map BoundStatement.command).flatten,
      allParameters joins⟩ :=
    ⟨by simpa [tableName] using slots_commands clauses, supplied_all clauses⟩
  split at accepted
  · rcases bind_eq_ok accepted with ⟨statement, statementOk, accepted⟩
    cases accepted
    exact aggregateStatement_supplied covers targetsOk source restricted statementOk
  · rcases bind_eq_ok accepted with ⟨record, recordOk, accepted⟩
    cases accepted
    exact recordStatement_supplied covers targetsOk source restricted recordOk

theorem edgeParts_supplied {traversal : Traversal} {ref : String} {index : Nat}
    {edges : List QueryStatement} (traverses : operation.traversal = some traversal)
    (held : traversal.relationCollections[index]? = some ref)
    (compiled : translator.edgeParts traversal ref index = .ok edges) :
    ∀ edge ∈ edges, Supplied supplies edge := by
  unfold edgeParts at compiled
  rcases bind_eq_ok compiled with ⟨layout, layoutOk, compiled⟩
  split at compiled
  · cases compiled
  · rcases bind_eq_ok compiled with ⟨scope, scopeOk, compiled⟩
    cases compiled
    have inScope : Supplied supplies scope := by
      unfold relationScope at scopeOk
      split at scopeOk
      · cases scopeOk
        exact scopePredicate_supplied covers "r"
      · rename_i predicate found
        rcases bind_eq_ok scopeOk with ⟨condition, conditionOk, equal⟩
        cases equal
        have root : operation.expressionAt (.relation index) = some predicate := by
          simp [QueryOperation.expressionAt, traverses, held, found]
        exact .conjunction
          (.pair (scopePredicate_supplied covers "r")
            (covers.expression root (.relation traverses held layoutOk) conditionOk))
    have part : ∀ columns, slots columns = [] → Supplied supplies
        (translator.edgePart columns index ref layout scope) := fun columns unslotted =>
      ⟨by simp [edgePart, tableName, unslotted, inScope.aligned.slots_eq],
        List.forall_mem_cons.mpr ⟨covers.other rfl (.relationRef traverses held), inScope.values⟩⟩
    intro edge listed
    rcases List.mem_append.mp listed with inside | inside
    · split at inside
      · exact List.mem_singleton.mp inside ▸ part _ rfl
      · cases inside
    · split at inside
      · exact List.mem_singleton.mp inside ▸ part _ rfl
      · cases inside

theorem traversalStatement_supplied {traversal : Traversal} {edges : List QueryStatement}
    (traverses : operation.traversal = some traversal)
    (each : ∀ edge ∈ edges, Supplied supplies edge) :
    Supplied supplies
      (translator.traversalStatement operation traversal edges) := by
  constructor
  · simp [traversalStatement, slots_commands each, walkStart, walkEnd]
  · simp only [traversalStatement, List.forall_mem_append, List.forall_mem_cons]
    have start := covers.other rfl (.startCollection traverses)
    have record := covers.other rfl (.startId traverses)
    have deepest := covers.other rfl (.maxDepth traverses)
    refine ⟨supplied_all each, start, record, start, record, deepest,
      covers.other rfl (.minDepth traverses), deepest, covers.other rfl (.pathLimit traverses),
      ?_⟩
    intro parameter member
    cases member

theorem compileTraversal_supplied {traversal : Traversal} {context : TranslationContext}
    {compiled : CompiledQuery} (traverses : operation.traversal = some traversal)
    (accepted : translator.compileTraversal operation traversal context = .ok compiled) :
    Supplied supplies compiled.statement := by
  rcases compileTraversal_cases accepted with ⟨edges, edgesOk, rfl⟩
  apply traversalStatement_supplied covers traverses
  intro edge listed
  rcases List.mem_flatten.mp listed with ⟨part, member, inside⟩
  have parts : ∀ part ∈ edges, ∀ edge ∈ part,
      Supplied supplies edge :=
    forall_of_mapM_zipIdx _ edgesOk (edgeParts_supplied covers traverses)
  exact parts part member edge inside

end Covered

/-- The statement of an accepted operation is aligned with whatever covers it. -/
theorem compile_plan_covered {plan : Plan} {context : TranslationContext}
    {compiled : CompiledQuery} {supplies : Origin → Json → Prop}
    (covers : Covers translator plan.operation supplies)
    (accepted : translator.compile plan context = .ok compiled) :
    Supplied supplies compiled.statement := by
  rcases compile_cases accepted with ⟨_, equal⟩ | ⟨_, _, traversal, given, walked⟩ |
    ⟨_, _, _, selected⟩
  · rw [equal]
    exact ⟨rfl, by simp⟩
  · exact compileTraversal_supplied covers given walked
  · exact compileSelect_supplied covers selected

/-- The statement of every accepted plan is aligned with what it supplies. -/
theorem compile_plan_supplied {plan : Plan} {context : TranslationContext}
    {compiled : CompiledQuery} (accepted : translator.compile plan context = .ok compiled) :
    Supplied (Supplies translator plan.operation) compiled.statement :=
  compile_plan_covered supplies_covers accepted

end PostgreSQLQueryTranslator

end MeridianPostgreSQL.Query
