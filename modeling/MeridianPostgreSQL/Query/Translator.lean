import MeridianPostgreSQL.Query.Operations

/-! # Translation of query plans

The statement `PostgreSQLQueryTranslator` makes of a plan. -/

namespace MeridianPostgreSQL.Query

open Settings

/-- The translator, with what it takes from the storage library and from
Python: the signer of its cursors, the fingerprint of an operation and the
spelling of a float. -/
structure PostgreSQLQueryTranslator where
  settings : PostgreSQLSettings
  cursorSigner : Option CursorSigner
  fingerprint : QueryOperation → String
  spell : Rat → List Char

structure CursorContext where
  planFingerprint : String
  schemaFingerprints : List (String × String)
  registryFingerprint : String
  scopeFingerprint : String

/-- A compiled query before `_compiled` renders its text and names its
parameters. -/
structure CompiledQuery where
  statement : QueryStatement
  planFingerprint : String
  resultShape : String
  maxResultBytes : Nat
  pageSize : Nat
  empty : Bool
  single : Bool
  cursorFields : List String
  cursorContext : Option CursorContext

namespace CompiledQuery

def sql (compiled : CompiledQuery) : List Char := compiled.statement.command.render

def parameterOrder (compiled : CompiledQuery) : List String :=
  (List.range compiled.statement.parameters.length).map fun index => s!"p{index}"

def parameters (compiled : CompiledQuery) : List (String × Json) :=
  compiled.parameterOrder.zip (compiled.statement.parameters.map Parameter.value)

end CompiledQuery

/-! ## Parts of a statement -/

def commaSeparated (parts : List QueryStatement) : QueryStatement :=
  ⟨joined ", " (parts.map BoundStatement.command), allParameters parts⟩

def aliased (statement : QueryStatement) (name : String) : QueryStatement :=
  ⟨statement.command ++ [Piece.text " AS ", .name name], statement.parameters⟩

def tableName (settings : PostgreSQLSettings) (layout : ResourceLayout) : Sql Origin :=
  ident [settings.physicalSchema.text, layout.table.text]

/-- The column of a field, with a point spelled as its coordinates. -/
def fieldColumn (tableAlias : String) (field : FieldLayout) : Sql Origin :=
  if field.isPoint then
    [Piece.text "jsonb_build_object('longitude', ST_X(("] ++
      ident [tableAlias, field.column.text] ++
      [Piece.text ")::geometry), 'latitude', ST_Y(("] ++
      ident [tableAlias, field.column.text] ++ [Piece.text ")::geometry))"]
  else ident [tableAlias, field.column.text]

def metadataColumns (layout : ResourceLayout) : List (String × String) :=
  [("__record_version", "recordVersion"), ("__created_at", "createdAt"),
    ("__updated_at", "updatedAt")].filter fun column =>
      ¬ (column.2 ∈ ["createdAt", "updatedAt"] ∧ column.2 ∈ layout.fieldNames)

/-- A record as it is returned, without a projection of its own. -/
def recordColumns (layout : ResourceLayout) (tableAlias : String) : List QueryStatement :=
  (layout.fields.map fun field => aliased ⟨fieldColumn tableAlias field, []⟩ field.name) ++
    (metadataColumns layout).map fun column =>
      aliased ⟨ident [tableAlias, column.1], []⟩ column.2

/-- The name of a projected column: an alias that is empty counts as none. -/
def Projection.selectedAlias (projection : Projection) (index : Nat) : String :=
  match projection.resultAlias with
  | some name => if name = "" then s!"value_{index}" else name
  | none => s!"value_{index}"

structure OrderKey where
  statement : QueryStatement
  direction : Direction
  nulls : Nulls

def OrderKey.suffix (key : OrderKey) : String :=
  match key.direction, key.nulls with
  | .asc, .first => " ASC NULLS FIRST"
  | .asc, .last => " ASC NULLS LAST"
  | .desc, .first => " DESC NULLS FIRST"
  | .desc, .last => " DESC NULLS LAST"

def orderBy (order : List OrderKey) : QueryStatement :=
  ⟨[Piece.text " ORDER BY "] ++ joined ", " (order.map fun key =>
      key.statement.command ++ [Piece.text key.suffix]),
    allParameters (order.map OrderKey.statement)⟩

def Direction.after : Direction → String
  | .asc => " > "
  | .desc => " < "

/-- `_after` -/
def after (key : OrderKey) (index : Nat) (value : Json) : QueryStatement :=
  let expression := key.statement
  if value = .null then
    match key.nulls with
    | .last => ⟨[.text "FALSE"], []⟩
    | .first => ⟨expression.command ++ [Piece.text " IS NOT NULL"], expression.parameters⟩
  else
    let cursor : Parameter Origin Json := ⟨.cursor index, value⟩
    match key.nulls with
    | .last =>
        ⟨[Piece.text "("] ++ expression.command ++
            [Piece.text " IS NULL OR ("] ++ expression.command ++
            [Piece.text " IS NOT NULL AND "] ++ expression.command ++
            [Piece.text key.direction.after, .slot (.cursor index), .text ")", .text ")"],
          expression.parameters ++ expression.parameters ++ expression.parameters ++ [cursor]⟩
    | .first =>
        ⟨[Piece.text "("] ++ expression.command ++ [Piece.text " IS NOT NULL AND "] ++
            expression.command ++
            [Piece.text key.direction.after, .slot (.cursor index), .text ")"],
          expression.parameters ++ expression.parameters ++ [cursor]⟩

def notDistinct (key : OrderKey) (index : Nat) (value : Json) : QueryStatement :=
  ⟨key.statement.command ++ [Piece.text " IS NOT DISTINCT FROM ", .slot (.cursor index)],
    key.statement.parameters ++ [⟨.cursor index, value⟩]⟩

/-- A branch of the keyset: the keys before the index are equal and the one at
the index is after. -/
def keysetBranch (keys : List (OrderKey × Json)) (index : Nat) : QueryStatement :=
  conjunction
    (((keys.take index).zipIdx.map fun entry => notDistinct entry.1.1 entry.2 entry.1.2) ++
      ((keys[index]?).map fun entry => after entry.1 index entry.2).toList)

def keysetPredicate (keys : List (OrderKey × Json)) : QueryStatement :=
  disjunction ((List.range keys.length).map (keysetBranch keys))

/-! ## Translation -/

namespace PostgreSQLQueryTranslator

variable (translator : PostgreSQLQueryTranslator)

def layout (canonical : String) : Compiled ResourceLayout :=
  match translator.settings.layout canonical with
  | some layout => .ok layout
  | none => .error (.key s!"no physical mapping for {canonical}")

/-- `_targets` -/
def targets (operation : QueryOperation) : Compiled Targets :=
  operation.targets.zipIdx.foldlM (fun collected target => do
    let layout ← translator.layout target.1
    .ok ⟨setKey collected.aliases target.1 s!"t{target.2}",
      setKey collected.layouts target.1 layout⟩) ⟨[], []⟩

/-- `_scope_predicate`. The scope values are injected at execution. -/
def scopePredicate (tableAlias : String) : QueryStatement :=
  ⟨joined " AND " (translator.settings.scopeColumns.map fun column =>
      ident [tableAlias, column] ++ [Piece.text " = ", .slot (.scope tableAlias column)]),
    translator.settings.scopeColumns.map fun column =>
      ⟨.scope tableAlias column, .object [("$scope", .string column)]⟩⟩

def joinClause (targets : Targets) (join : Join) (index : Nat) : Compiled QueryStatement := do
  let layout ← lookupKey targets.layouts join.target
  let condition ← compile targets (.join index) [] join.on
  let tableAlias ← lookupKey targets.aliases join.target
  let predicate := conjunction [condition, translator.scopePredicate tableAlias]
  .ok ⟨[Piece.text (if join.left then " LEFT JOIN " else " INNER JOIN ")] ++
      tableName translator.settings layout ++
      [Piece.text " AS ", .name tableAlias, .text " ON "] ++ predicate.command,
    predicate.parameters⟩

def filterPredicate (targets : Targets) (tableAlias : String)
    (filter : Option Expression) : Compiled QueryStatement :=
  match filter with
  | none => .ok (translator.scopePredicate tableAlias)
  | some filter => do
      let compiled ← compile targets .filter [] filter
      .ok (conjunction [translator.scopePredicate tableAlias, compiled])

/-- The columns a plan asks for, or the whole record. -/
def selectedColumns (operation : QueryOperation) (layout : ResourceLayout)
    (tableAlias : String) (targets : Targets) : Compiled (List QueryStatement) :=
  if operation.projection.isEmpty then .ok (recordColumns layout tableAlias)
  else operation.projection.zipIdx.mapM fun projection => do
    let compiled ← compile targets (.projection projection.2) [] projection.1.expression
    .ok (aliased compiled (projection.1.selectedAlias projection.2))

/-- `_record_projection` -/
def recordProjection (operation : QueryOperation) (layout : ResourceLayout)
    (tableAlias : String) (targets : Targets) (order : List OrderKey)
    (cursorFields : List String) : Compiled QueryStatement := do
  let columns ← selectedColumns operation layout tableAlias targets
  .ok (commaSeparated (columns ++
    (order.zip cursorFields).map fun entry => aliased entry.1.statement entry.2))

/-- `_aggregate_projection` -/
def aggregateProjection (operation : QueryOperation) (targets : Targets) :
    Compiled QueryStatement := do
  let groups ← operation.grouping.zipIdx.mapM fun grouping => do
    let compiled ← compile targets (.grouping grouping.2) [] grouping.1
    .ok (aliased compiled s!"group_{grouping.2}")
  let aggregates ← operation.aggregates.zipIdx.mapM fun aggregate => do
    let compiled ← compile targets (.aggregate aggregate.2) [] aggregate.1.aggregate
    .ok (aliased compiled aggregate.1.name)
  .ok (commaSeparated (groups ++ aggregates))

/-- `_grouping` -/
def grouping (operation : QueryOperation) (targets : Targets) : Compiled QueryStatement :=
  if operation.grouping.isEmpty then .ok ⟨[.text ""], []⟩
  else do
    let groups ← operation.grouping.zipIdx.mapM fun grouping =>
      compile targets (.grouping grouping.2) [] grouping.1
    .ok ⟨[Piece.text " GROUP BY "] ++ joined ", " (groups.map BoundStatement.command),
      allParameters groups⟩

/-- The identity field that an order item already sorts by. -/
def represented (layout : ResourceLayout) (item : OrderItem) : Option String :=
  match item.expression with
  | .field resource name =>
      if resource = none ∨ resource = some layout.ref.canonical then some name else none
  | _ => none

/-- `_order`: the identity fields that are not sorted by come last. -/
def order (operation : QueryOperation) (layout : ResourceLayout) (targets : Targets) :
    Compiled (List OrderKey) := do
  let keys ← operation.order.zipIdx.mapM fun item => do
    let compiled ← compile targets (.order item.2) [] item.1.expression
    .ok (OrderKey.mk compiled item.1.direction item.1.nulls)
  let names := layout.identity.filter fun name =>
    name ∉ operation.order.filterMap (represented layout)
  let appended ← names.mapM fun name =>
    match layout.field name with
    | some field => Except.ok (OrderKey.mk ⟨ident ["t0", field.column.text], []⟩ .asc .last)
    | none => .error (.key name)
  .ok (keys ++ appended)

/-- `_cursor_plan_fingerprint` -/
def cursorPlanFingerprint (operation : QueryOperation) : String :=
  translator.fingerprint { operation with
    page := { operation.page with cursor := none }
    budget := { operation.budget with deadlineMs := 30000 } }

/-- `_keyset` -/
def keyset (operation : QueryOperation) (context : TranslationContext)
    (order : List OrderKey) : Compiled QueryStatement :=
  match translator.cursorSigner, operation.page.cursor with
  | some signer, some cursor => do
      let payload ← signer.verify cursor
      if payload.planFingerprint ≠ translator.cursorPlanFingerprint operation ∨
          ¬ payload.schemaFingerprints.Perm context.schemaFingerprints ∨
          payload.registryFingerprint ≠ context.registryFingerprint ∨
          payload.scopeFingerprint ≠ context.scopeFingerprint ∨
          payload.pageSize ≠ operation.page.size ∨
          payload.sortTuple.length ≠ order.length then
        .error (.value
          "cursor does not match the current plan, Registry, Schema, scope, or order")
      else .ok (keysetPredicate (order.zip payload.sortTuple))
  | _, _ => .error (.value "cursor pagination requires an Adapter-owned CursorSigner")

/-- The predicate, with the keyset of a page after the first. -/
def cursorPredicate (operation : QueryOperation) (context : TranslationContext)
    (order : List OrderKey) (predicate : QueryStatement) : Compiled QueryStatement :=
  if operation.page.cursor.isSome then do
    let keyset ← translator.keyset operation context order
    .ok (conjunction [predicate, keyset])
  else .ok predicate

def cursorContext (operation : QueryOperation) (context : TranslationContext) :
    CursorContext :=
  ⟨translator.cursorPlanFingerprint operation, context.schemaFingerprints,
    context.registryFingerprint, context.scopeFingerprint⟩

/-- `_compile_select` for an aggregate. -/
def aggregateStatement (operation : QueryOperation) (targets : Targets)
    (source predicate : QueryStatement) : Compiled QueryStatement := do
  let select ← aggregateProjection operation targets
  let group ← grouping operation targets
  .ok ⟨[Piece.text "SELECT "] ++ select.command ++ source.command ++ [Piece.text " WHERE "] ++
      predicate.command ++ group.command,
    select.parameters ++ source.parameters ++ predicate.parameters ++ group.parameters⟩

/-- The rest of `_compile_select`. -/
def recordStatement (operation : QueryOperation) (context : TranslationContext)
    (layout : ResourceLayout) (tableAlias : String) (targets : Targets)
    (source predicate : QueryStatement) : Compiled (QueryStatement × List String) := do
  let order ← order operation layout targets
  let cursorFields := (List.range order.length).map fun index => s!"__cursor_{index}"
  let select ← recordProjection operation layout tableAlias targets order cursorFields
  let predicate ← translator.cursorPredicate operation context order predicate
  let sorted := orderBy order
  .ok (⟨[Piece.text "SELECT "] ++ select.command ++ source.command ++ [Piece.text " WHERE "] ++
      predicate.command ++ sorted.command ++ [Piece.text " LIMIT ", .slot .limit],
    select.parameters ++ source.parameters ++ predicate.parameters ++ sorted.parameters ++
      [⟨.limit, .int (operation.page.size + 1)⟩]⟩, cursorFields)

def baseTarget (operation : QueryOperation) : Compiled String :=
  match operation.targets with
  | base :: _ => .ok base
  | [] => .error (.key "")

/-- `_compile_select` -/
def compileSelect (operation : QueryOperation) (context : TranslationContext) :
    Compiled CompiledQuery := do
  let targets ← translator.targets operation
  let base ← baseTarget operation
  let layout ← lookupKey targets.layouts base
  let tableAlias ← lookupKey targets.aliases base
  let joins ← operation.joins.zipIdx.mapM fun join =>
    translator.joinClause targets join.1 join.2
  let source : QueryStatement :=
    ⟨[Piece.text " FROM "] ++ tableName translator.settings layout ++
        [Piece.text " AS ", .name tableAlias] ++ (joins.map BoundStatement.command).flatten,
      allParameters joins⟩
  let predicate ← translator.filterPredicate targets tableAlias operation.filter
  if operation.kind = .aggregate then do
    let statement ← aggregateStatement operation targets source predicate
    .ok ⟨statement, context.planFingerprint, operation.resultShape,
      operation.budget.maxNormalizedBytes, operation.page.size, false, false, [], none⟩
  else do
    let record ← translator.recordStatement operation context layout tableAlias targets source
      predicate
    .ok ⟨record.1, context.planFingerprint, operation.resultShape,
      operation.budget.maxNormalizedBytes, operation.page.size, false,
      operation.kind = .get, record.2, some (translator.cursorContext operation context)⟩

/-! ## Traversal -/

def forwardColumns : Sql Origin :=
  [.text "::text AS relation_ref, r.__source_collection AS source_collection, ",
    .text "r.__source_record_id AS source_id, r.__target_collection AS target_collection, ",
    .text "r.__target_record_id AS target_id FROM "]

def reverseColumns : Sql Origin :=
  [.text "::text AS relation_ref, r.__target_collection AS source_collection, ",
    .text "r.__target_record_id AS source_id, r.__source_collection AS target_collection, ",
    .text "r.__source_record_id AS target_id FROM "]

def edgePart (columns : Sql Origin) (index : Nat) (ref : String) (layout : ResourceLayout)
    (scope : QueryStatement) : QueryStatement :=
  ⟨[Piece.text "SELECT ", .slot (.relationRef index)] ++ columns ++
      tableName translator.settings layout ++ [Piece.text " AS r WHERE "] ++ scope.command,
    ⟨.relationRef index, .string ref⟩ :: scope.parameters⟩

/-- The predicate of one relation collection, as the alias `r`. -/
def relationScope (traversal : Traversal) (ref : String) (index : Nat)
    (layout : ResourceLayout) : Compiled QueryStatement :=
  match traversal.relationPredicates.lookup ref with
  | none => .ok (translator.scopePredicate "r")
  | some predicate => do
      let compiled ← compile ⟨[(ref, "r")], [(ref, layout)]⟩ (.relation index) [] predicate
      .ok (conjunction [translator.scopePredicate "r", compiled])

/-- The edges of one relation collection. -/
def edgeParts (traversal : Traversal) (ref : String) (index : Nat) :
    Compiled (List QueryStatement) := do
  let layout ← translator.layout ref
  match layout.relation with
  | none => .error (.value s!"traversal resource {ref} is not a Relation Collection")
  | some relation => do
      let scope ← translator.relationScope traversal ref index layout
      let forward :=
        if traversal.direction = .outbound ∨ traversal.direction = .any ∨
            relation.directed = false then
          [translator.edgePart forwardColumns index ref layout scope]
        else []
      let reverse :=
        if traversal.direction = .inbound ∨ traversal.direction = .any ∨
            relation.directed = false then
          [translator.edgePart reverseColumns index ref layout scope]
        else []
      .ok (forward ++ reverse)

def walkStart : Sql Origin :=
  [.text "), walk(depth, collection_ref, record_id, path, relation_path) AS (SELECT 0, ",
    .slot .startCollection, .text "::text, ", .slot .startId, .text "::text, ARRAY[",
    .slot .startCollection, .text "::text || E'\\x1f' || ", .slot .startId,
    .text "::text], ARRAY[]::text[] UNION ALL ",
    .text "SELECT w.depth + 1, e.target_collection, e.target_id, ",
    .text "w.path || (e.target_collection || E'\\x1f' || e.target_id), ",
    .text "w.relation_path || e.relation_ref FROM walk AS w JOIN edges AS e ",
    .text "ON e.source_collection = w.collection_ref AND e.source_id = w.record_id ",
    .text "WHERE w.depth < "]

def walkEnd : Sql Origin :=
  [.slot .maxDepth,
    .text " AND NOT (e.target_collection || E'\\x1f' || e.target_id) = ANY(w.path)) ",
    .text "SELECT collection_ref AS \"collectionRef\", record_id::jsonb AS \"recordId\", ",
    .text "depth, path, relation_path AS \"relationPath\" FROM walk WHERE depth BETWEEN ",
    .slot .minDepth, .text " AND ", .slot .maxDepth,
    .text " ORDER BY depth, collection_ref, record_id LIMIT ", .slot .limit]

def traversalStatement (operation : QueryOperation) (traversal : Traversal)
    (edges : List QueryStatement) : QueryStatement :=
  let startId := Json.string (dumps translator.spell traversal.startId)
  ⟨[Piece.text "WITH RECURSIVE edges AS ("] ++
      joined " UNION ALL " (edges.map BoundStatement.command) ++ walkStart ++ walkEnd,
    allParameters edges ++
      [⟨.startCollection, .string traversal.startCollection⟩, ⟨.startId, startId⟩,
        ⟨.startCollection, .string traversal.startCollection⟩, ⟨.startId, startId⟩,
        ⟨.maxDepth, .int traversal.maxDepth⟩, ⟨.minDepth, .int traversal.minDepth⟩,
        ⟨.maxDepth, .int traversal.maxDepth⟩,
        ⟨.limit, .int (min operation.page.size operation.budget.maxReturnedPaths + 1)⟩]⟩

def traversalDepth : Nat := 8

/-- `_compile_traversal` -/
def compileTraversal (operation : QueryOperation) (traversal : Traversal)
    (context : TranslationContext) : Compiled CompiledQuery :=
  if traversal.resolved = false ∨ traversal.relationCollections = [] then
    .error (.value
      "all-neighbors traversal must be Registry-resolved before translation")
  else if traversal.allNeighbors = true ∧
      traversal.registryFingerprint ≠ some context.registryFingerprint then
    .error (.value "all-neighbors traversal Registry closure is stale")
  else if traversal.recordFilter.isSome then
    .error (.value "cross-Collection traversal record filters are unavailable in V1")
  else if operation.budget.maxRelationResources < traversal.relationCollections.length then
    .error (.value "traversal relation collection bound exceeded")
  else if min operation.budget.maxTraversalDepth traversalDepth < traversal.maxDepth then
    .error (.value "traversal depth bound exceeded")
  else do
    let edges ← traversal.relationCollections.zipIdx.mapM fun ref =>
      translator.edgeParts traversal ref.1 ref.2
    .ok ⟨translator.traversalStatement operation traversal edges.flatten,
      context.planFingerprint, operation.resultShape, operation.budget.maxNormalizedBytes,
      operation.page.size, false, false, [], none⟩

/-! ## Plans -/

/-- `compile` -/
def compile (plan : Plan) (context : TranslationContext) : Compiled CompiledQuery :=
  let operation := plan.operation
  if operation.consistency ∉ ["strong", "session"] then
    .error (.value "query consistency is not advertised by this Adapter")
  else if operation.page.pointInTime then
    .error (.value "point-in-time pagination is not advertised by this Adapter")
  else if operation.includeTotal then
    .error (.value "total counts are not advertised by this Adapter")
  else if plan.bindingId.getD context.bindingId ≠ context.bindingId then
    .error (.value "query plan and translation Binding ids differ")
  else if plan.registryFingerprint.getD context.registryFingerprint ≠
      context.registryFingerprint then
    .error (.value "query plan and translation registry revisions differ")
  else if plan.emptyResult then
    .ok ⟨⟨[.text "SELECT NULL WHERE FALSE"], []⟩, context.planFingerprint,
      operation.resultShape, operation.budget.maxNormalizedBytes, operation.page.size, true,
      false, [], none⟩
  else
    match operation.kind with
    | .traverse =>
        match operation.traversal with
        | some traversal => translator.compileTraversal operation traversal context
        | none => .error (.type "a traversal is required")
    | .mutation =>
        .error (.value
          "mutation QueryOperation values are carried by structured Operations")
    | _ => translator.compileSelect operation context

/-! ## A scan of the work queue -/

def workTranslator : PostgreSQLQueryTranslator :=
  ⟨workSettings, none, fun _ => "", fun _ => []⟩

def workContext : TranslationContext := ⟨"postgresql-test", "plan", "registry", [], "scope"⟩

def workScan (filter : Expression) : Plan where
  operation := {
    kind := .scan
    targets := ["structured:example.work"]
    joins := []
    filter := some filter
    projection := []
    includeTotal := false
    resultShape := "records"
    grouping := []
    aggregates := []
    order := []
    page := ⟨10, none, false⟩
    consistency := "strong"
    budget := ⟨32, 8, 500, 1000000, 30000⟩
    traversal := none }
  bindingId := none
  registryFingerprint := none
  emptyResult := false

def priority : Expression := .field none "priority"

end PostgreSQLQueryTranslator

end MeridianPostgreSQL.Query
