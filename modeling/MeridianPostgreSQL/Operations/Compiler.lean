import MeridianPostgreSQL.Query.Filters

/-! # Operations

`OperationCompiler`: from a request of the storage library to the command that
a session executes. -/

namespace MeridianPostgreSQL.Operations

open Settings Query

structure Operation where
  catalog : String
  operationContract : String
  operationVersion : String
  resources : List ResourceRef
  input : Json.Object
  readOnly : Bool

/-- The time that is left is given in milliseconds. -/
structure ExecutionRequest where
  operation : Operation
  bindingId : String
  registryFingerprint : String
  context : OperationContext
  remainingMs : Option Int

def Operation.hasPlan (operation : Operation) : Bool :=
  "queryPlan" ∈ Json.names operation.input

/-! ## Commands -/

structure MetadataPublishCommand (Document : Type) where
  document : Document
  expectedRevision : Option Int
  allowBreaking : Bool

/-- `AdapterCommand`. A batch of appends has a command for each record. -/
inductive AdapterCommand (Document : Type) where
  | dml (commands : List DMLCommand)
  | query (compiled : CompiledQuery)
  | publish (command : MetadataPublishCommand Document)

/-! ## The storage library -/

/-- What the compiler takes from the storage library: the constructors of
plans and of their parts, with the checks they make, and fingerprints. -/
structure StorageLibrary (Document : Type) where
  /-- A `QueryOperation` of which only defaults are given. -/
  blank : QueryOperation
  queryOperation : QueryOperation → Compiled QueryOperation
  fromMapping : Json.Object → Compiled QueryOperation
  resources : QueryOperation → List ResourceRef
  field : Json → Compiled Expression
  sort : Expression → Json → Json → Compiled OrderItem
  pageSpec : Int → Option Json → Compiled Page
  safetyBudget : Int → Int → Compiled Budget
  fullText : String → List String → Compiled Expression
  both : Expression → Expression → Expression
  aggregate : String → Option Expression → Bool → Compiled Expression
  traversalSpec : Json.Object → List String → Bool → Int → Option Json → Compiled Traversal
  schemaDocument : String → String → String → Json.Object → Compiled Document
  scopeFingerprint : OperationContext → String

structure OperationCompiler (Document : Type) where
  settings : PostgreSQLSettings
  translator : PostgreSQLQueryTranslator
  dml : DMLCompiler
  library : StorageLibrary Document

namespace OperationCompiler

variable {Document : Type} (compiler : OperationCompiler Document)

/-! ## Admission -/

/-- What follows the Catalog's stem in an Operation contract. -/
def contractMethod (operation : Operation) : Option String :=
  let stem := "meridian." ++ operation.catalog ++ "."
  if stem.toList.isPrefixOf operation.operationContract.toList then
    some (String.ofList (operation.operationContract.toList.drop stem.length))
  else none

def readMethods : List String := ["get", "query", "aggregate", "search", "traverse"]

def allowedMethods (catalog : String) : List String :=
  if catalog = "structured" then
    ["aggregate", "create_resource", "delete", "get", "patch", "publish_schema", "put", "query",
      "search", "traverse"]
  else ["append", "query"]

def requiredVersion (catalog method : String) : String :=
  if catalog = "structured" ∧ method = "put" then "2.0.0" else "1.0.0"

/-- The checks before a method is told from another. -/
def admitted (operation : Operation) : Compiled String :=
  if operation.catalog ∉ ["structured", "evidence"] then
    .error (.value "PostgreSQL V1 implements structured and evidence operations")
  else
    match contractMethod operation with
    | none => .error (.value "Operation contract does not match its Catalog")
    | some method =>
        if compiler.settings.readOnly = true ∧
            (operation.readOnly = false ∨ method ∉ readMethods) then
          .error (.value "read compatibility Binding is read-only")
        else if method ∉ allowedMethods operation.catalog then
          .error (.value s!"unsupported {operation.catalog} Operation contract: '{method}'")
        else if operation.operationVersion ≠ requiredVersion operation.catalog method then
          .error (.value s!"{operation.operationContract} requires Operation version {requiredVersion operation.catalog method}")
        else if method = "put" ∧ operation.hasPlan = true then
          .error (.value "structured.put cannot contain a queryPlan")
        else if method = "create_resource" then
          .error (.value "physical DDL is only available through the Platform migration hook")
        else if operation.resources.length < 1 then
          .error (.value "PostgreSQL Operation requires a Resource")
        else if operation.resources.any fun resource => resource.catalog ≠ operation.catalog then
          .error (.value "Operation Resources must belong to its Catalog")
        else if method ≠ "traverse" ∧ operation.hasPlan = false ∧
            operation.resources.length ≠ 1 then
          .error (.value "non-traversal Operations require exactly one Resource")
        else .ok method

variable {compiler} in
/-- What admission says of a method. -/
theorem admitted_cases {operation : Operation} {method : String}
    (accepted : compiler.admitted operation = .ok method) :
    contractMethod operation = some method ∧
    (compiler.settings.readOnly = true → operation.readOnly = true ∧ method ∈ readMethods) ∧
    method ∈ allowedMethods operation.catalog ∧ method ≠ "create_resource" ∧
    (method = "put" → operation.hasPlan = false) ∧
    (method ≠ "traverse" → operation.hasPlan = false → operation.resources.length = 1) := by
  unfold admitted at accepted
  obtain ⟨_, accepted⟩ := check_eq_ok accepted
  cases contract : contractMethod operation with
  | none =>
      rw [contract] at accepted
      exact nomatch accepted
  | some known =>
      rw [contract] at accepted
      obtain ⟨guarded, accepted⟩ := check_eq_ok accepted
      obtain ⟨listed, accepted⟩ := check_eq_ok accepted
      obtain ⟨_, accepted⟩ := check_eq_ok accepted
      obtain ⟨put, accepted⟩ := check_eq_ok accepted
      obtain ⟨creates, accepted⟩ := check_eq_ok accepted
      obtain ⟨_, accepted⟩ := check_eq_ok accepted
      obtain ⟨_, accepted⟩ := check_eq_ok accepted
      obtain ⟨single, accepted⟩ := check_eq_ok accepted
      cases accepted
      simp only [not_and, not_or, Bool.not_eq_true, Bool.not_eq_false, not_not]
        at guarded listed put single
      exact ⟨rfl, guarded, listed, creates, put, single⟩

def layout (ref : ResourceRef) : Compiled ResourceLayout :=
  compiler.translator.layout ref.canonical

/-! ## Publication -/

def publishArguments : List String :=
  ["namespace", "name", "version", "definition", "allowBreaking"]

/-- The revision that a publication expects. -/
def expectedRevision (values : Json.Object) : Compiled (Option Int) :=
  match member values "expectedRegistryRevision" with
  | none => .ok none
  | some (.int expected) =>
      if expected < 0 then
        .error (.value "Schema expected revision must be a nonnegative integer")
      else .ok (some expected)
  | some _ => .error (.value "Schema expected revision must be a nonnegative integer")

/-- Whether the operation writes the one registry of the settings. -/
def pinnedRegistry (operation : Operation) : Compiled Bool :=
  match operation.resources with
  | [registry] =>
      if operation.catalog = "structured" ∧ operation.readOnly = false ∧
          registry.canonical = "structured:meridian.registry" then
        (compiler.layout registry).map ResourceLayout.isRegistry
      else .ok false
  | _ => .ok false

/-- `_publish_schema` -/
def publishSchema (request : ExecutionRequest) :
    Compiled (MetadataPublishCommand Document) := do
  let operation := request.operation
  let _ ← compiler.dml.scopeValues request.context
  let pinned ← compiler.pinnedRegistry operation
  if pinned = false then
    .error (.value "Schema publication requires the pinned structured metadata registry")
  else if ¬ publishArguments ⊆ Json.names operation.input ∨
      ¬ Json.names operation.input ⊆ "expectedRegistryRevision" :: publishArguments then
    .error (.value "Schema publication contains unknown or missing arguments")
  else
    match Json.get operation.input "namespace", Json.get operation.input "name",
        Json.get operation.input "version", Json.get operation.input "definition",
        Json.get operation.input "allowBreaking" with
    | some (.string namespaceName), some (.string name), some (.string version),
        some (.object definition), some (.bool allowBreaking) => do
        let expected ← expectedRevision operation.input
        let document ← compiler.library.schemaDocument namespaceName name version definition
        .ok ⟨document, expected, allowBreaking⟩
    | _, _, _, _, _ => .error (.value "Schema publication arguments have invalid types")

/-! ## Structured queries -/

/-- `values.get(name, default)` -/
def given (values : Json.Object) (name : String) (default : Json) : Json :=
  (Json.get values name).getD default

def items (value : Json) : Option (List Json) :=
  match value with
  | .array items => some items
  | _ => none

def textOf (value : Json) : Option String :=
  match value with
  | .string text => some text
  | _ => none

def integer (value : Json) : Option Int :=
  match value with
  | .int value => some value
  | _ => none

/-- An entry of `orderBy`. -/
def orderItem (layout : ResourceLayout) (item : Json) : Compiled OrderItem :=
  match item with
  | .object members =>
      if ¬ Json.names members ⊆ ["field", "direction", "nulls"] then
        .error (.value "orderBy entries require field/direction/nulls")
      else
        match Json.get members "field" with
        | some (.string name) =>
            if name ∈ layout.fieldNames then do
              let field ← compiler.library.field (.string name)
              compiler.library.sort field (given members "direction" (.string "asc"))
                (given members "nulls" (.string "last"))
            else .error (.value "orderBy references an unknown field")
        | _ => .error (.value "orderBy references an unknown field")
  | _ => .error (.value "orderBy entries require field/direction/nulls")

def projectionOf (name : Json) : Compiled Projection := do
  let field ← compiler.library.field name
  .ok ⟨field, textOf name⟩

/-- `_structured_query` -/
def structuredQuery (values : Json.Object) (target : ResourceRef) (predicate : Option Expression)
    (budget : Budget) (layout : ResourceLayout) : Compiled QueryOperation :=
  match items (given values "select" (.array [])), items (given values "orderBy" (.array [])),
      integer (given values "limit" (.int 50)) with
  | some select, some orderBy, some limit => do
      let projection ← select.mapM compiler.projectionOf
      let order ← orderBy.mapM (compiler.orderItem layout)
      let page ← compiler.library.pageSpec limit (member values "cursor")
      compiler.library.queryOperation { compiler.library.blank with
        kind := .scan, targets := [target.canonical], resultShape := "records"
        projection := projection, filter := predicate, order := order, page := page
        budget := budget }
  | _, _, _ => .error
      (.type "structured query select, orderBy, or limit has an invalid type")

/-- The fields of the full-text indexes. -/
def fullTextFields (layout : ResourceLayout) : List String :=
  (layout.indexes.filter fun index => index.kind = .fullText).flatMap IndexLayout.fields

/-- The text and the fields of a search. -/
def searchTerms (values : Json.Object) (available : List String) :
    Compiled (Json × List Json) :=
  let query := given values "query" .null
  match query with
  | .object members =>
      match given members "fields" (.array (available.map Json.string)) with
      | .array selected => .ok (given members "text" .null, selected)
      | _ => .error (.type "search fields must be an array")
  | _ => .ok (query, available.map Json.string)

/-- `_structured_search` -/
def structuredSearch (values : Json.Object) (target : ResourceRef)
    (predicate : Option Expression) (budget : Budget) (layout : ResourceLayout) :
    Compiled QueryOperation :=
  let available := fullTextFields layout
  if (given values "facets" .null).truthy ∨ (given values "highlights" .null).truthy then
    .error (.value "this V1 profile does not advertise facets or highlights")
  else if available = [] then .error (.value "search requires a pinned full-text index")
  else do
    let (text, fields) ← searchTerms values available
    match text with
    | .string text =>
        if fields = [] ∨ ¬ fields.Nodup ∨ ¬ fields ⊆ available.map Json.string then
          .error (.value "search fields must be unique and backed by pinned full-text indexes")
        else do
          let found ← compiler.library.fullText text (fields.filterMap textOf)
          match integer (given values "limit" (.int 50)) with
          | none => .error (.type "search limit must be an integer")
          | some limit => do
              let page ← compiler.library.pageSpec limit (member values "cursor")
              compiler.library.queryOperation { compiler.library.blank with
                kind := .search, targets := [target.canonical], resultShape := "search"
                filter := some ((predicate.map fun predicate =>
                  compiler.library.both predicate found).getD found)
                page := page, budget := budget }
    | _ => .error (.type "search query text must be a string")

/-- A metric of an aggregate. -/
def metric (item : Json) : Compiled NamedAggregate :=
  match item with
  | .object members =>
      if ¬ Json.names members ⊆ ["name", "function", "field", "distinct"] then
        .error (.value "aggregate metric is not a closed V1 metric")
      else
        match Json.get members "name", Json.get members "function",
            given members "distinct" (.bool false) with
        | some (.string name), some (.string function), .bool distinct => do
            let operand ← (member members "field").mapM compiler.library.field
            let aggregate ← compiler.library.aggregate function operand distinct
            .ok ⟨name, aggregate⟩
        | some (.string _), some (.string _), _ =>
            .error (.type "aggregate distinct must be a boolean")
        | _, _, _ => .error (.type "aggregate name and function must be strings")
  | _ => .error (.value "aggregate metric is not a closed V1 metric")

/-- `_structured_aggregate`. The page is the one of the defaults. -/
def structuredAggregate (values : Json.Object) (target : ResourceRef)
    (predicate : Option Expression) (budget : Budget) : Compiled QueryOperation :=
  match items (given values "groupBy" (.array [])), items (given values "metrics" (.array [])) with
  | some names, some metrics => do
      let grouping ← names.mapM compiler.library.field
      let aggregates ← metrics.mapM compiler.metric
      compiler.library.queryOperation { compiler.library.blank with
        kind := .aggregate, targets := [target.canonical], resultShape := "aggregate"
        filter := predicate, grouping := grouping, aggregates := aggregates, budget := budget }
  | _, _ => .error (.type "aggregate groupBy and metrics must be arrays")

/-- `_structured_traverse`. The Resources after the first are the relations. -/
def structuredTraverse (operation : Operation) (target : ResourceRef) (budget : Budget) :
    Compiled QueryOperation :=
  let values := operation.input
  match Json.get values "start", integer (given values "maxDepth" (.int 1)) with
  | some (.object start), some maxDepth => do
      let allNeighbors := Json.get values "allNeighbors" = some (.bool true)
      let traversal ← compiler.library.traversalSpec start
        ((operation.resources.drop 1).map ResourceRef.canonical) allNeighbors maxDepth
        (if allNeighbors then member values "registryFingerprint" else none)
      let page ← compiler.library.pageSpec (min budget.maxReturnedPaths 500) none
      compiler.library.queryOperation { compiler.library.blank with
        kind := .traverse, targets := [target.canonical], resultShape := "records"
        traversal := some traversal, page := page, budget := budget }
  | some (.object _), none => .error (.type "traversal maxDepth must be an integer")
  | _, _ => .error (.type "traversal start must be a RecordReference")

/-! ## Plans -/

/-- `_deadline_ms` -/
def deadlineMs (request : ExecutionRequest) (default : Int) : Int :=
  match request.remainingMs with
  | none => default
  | some remaining => max 1 (min default remaining)

def maximumBytes : Int := 16 * 1024 * 1024

def resultLimit (values : Json.Object) : Int :=
  min ((integer (given values "resultByteLimit" (.int maximumBytes))).getD maximumBytes)
    maximumBytes

/-- A query without a plan of its own. -/
def structuredOperation (request : ExecutionRequest) (method : String)
    (target : ResourceRef) : Compiled QueryOperation := do
  let operation := request.operation
  let layout ← compiler.layout target
  match given operation.input "where" (.object []) with
  | .object filter => do
      let predicate ← compiler.dml.parseFilter filter
      let budget ← compiler.library.safetyBudget (deadlineMs request 30000)
        (resultLimit operation.input)
      if method = "query" then
        compiler.structuredQuery operation.input target predicate budget layout
      else if method = "search" then
        compiler.structuredSearch operation.input target predicate budget layout
      else if method = "aggregate" then
        compiler.structuredAggregate operation.input target predicate budget
      else if method = "traverse" then compiler.structuredTraverse operation target budget
      else .error (.value s!"unsupported {operation.catalog} Operation contract: '{method}'")
  | _ => .error (.type "structured query where must be an object")

/-- `_query_operation` -/
def queryOperation (request : ExecutionRequest) (method : String) : Compiled QueryOperation :=
  match member request.operation.input "queryPlan" with
  | some (.object plan) => compiler.library.fromMapping plan
  | some _ => .error (.type "queryPlan must be a released QueryOperation mapping")
  | none =>
      match request.operation.resources with
      | target :: _ => compiler.structuredOperation request method target
      | [] => .error (.key "")

/-- `{ref.canonical: layout(ref).schema_fingerprint ...}` -/
def schemaFingerprints (refs : List ResourceRef) : Compiled (List (String × String)) :=
  refs.foldlM (fun collected ref => do
    let layout ← compiler.layout ref
    .ok (setKey collected ref.canonical layout.schemaFingerprint)) []

/-- The rest of `compile`: the request is a query. -/
def compileQuery (request : ExecutionRequest) (method : String) : Compiled CompiledQuery := do
  let _ ← compiler.dml.scopeValues request.context
  let operation ← compiler.queryOperation request method
  let resources := compiler.library.resources operation
  if ¬ (resources ⊆ request.operation.resources ∧ request.operation.resources ⊆ resources) then
    .error (.value "query plan Resources differ from the enclosing Operation")
  else do
    let fingerprints ← compiler.schemaFingerprints resources
    compiler.translator.compile ⟨operation, none, none, false⟩
      ⟨request.bindingId, compiler.translator.fingerprint operation,
        request.registryFingerprint, fingerprints,
        compiler.library.scopeFingerprint request.context⟩

/-! ## Dispatch -/

/-- Whether one of the Resources stands for the Schema registry. -/
def anyRegistry : List ResourceRef → Compiled Bool
  | [] => .ok false
  | ref :: rest => do
      let layout ← compiler.layout ref
      if layout.isRegistry then .ok true else anyRegistry rest

/-- The methods of the `DMLCompiler`. -/
def dmlMethod (method : String) : Option Method :=
  if method = "put" then some .put
  else if method = "get" then some .get
  else if method = "patch" then some .patch
  else if method = "delete" then some .delete
  else if method = "append" then some .append
  else none

/-- A request that is not a publication. -/
def dispatch (request : ExecutionRequest) (method : String) :
    Compiled (AdapterCommand Document) := do
  let registry ← compiler.anyRegistry request.operation.resources
  if registry then .error (.value
    "metadata registry only supports Schema publication; use SchemaAPI for reads")
  else
    match dmlMethod method, request.operation.hasPlan, request.operation.resources with
    | some known, false, target :: _ =>
        (compiler.dml.compile known target.canonical request.operation.input
          request.context).map .dml
    | _, _, _ => (compiler.compileQuery request method).map .query

/-- `compile` -/
def compile (request : ExecutionRequest) : Compiled (AdapterCommand Document) := do
  let method ← compiler.admitted request.operation
  if method = "publish_schema" then (compiler.publishSchema request).map .publish
  else compiler.dispatch request method

end OperationCompiler

/-! ## The compiler of the sample Binding -/

/-- Defaults of a plan, and the work queue as its target. -/
def workPlan : QueryOperation :=
  { (PostgreSQLQueryTranslator.workScan PostgreSQLQueryTranslator.priority).operation with
    filter := none }

/-- A storage library that reads the kind of a plan on the work queue. -/
def workLibrary : StorageLibrary Json.Object where
  blank := workPlan
  queryOperation := .ok
  fromMapping := fun plan =>
    if Json.get plan "operation" = some (.string "scan") then .ok workPlan
    else .error (.value "unsupported query operation")
  resources := fun _ => [workLayout.ref]
  field := fun name => match name with
    | .string name => .ok (.field none name)
    | _ => .error (.type "field names are strings")
  sort := fun expression _ _ => .ok ⟨expression, .asc, .last⟩
  pageSpec := fun size _ => .ok ⟨size.toNat, none, false⟩
  safetyBudget := fun deadline bytes => .ok ⟨32, 8, 500, bytes.toNat, deadline.toNat⟩
  fullText := fun text fields => .ok (.fullText (fields.map (.field none)) (.string text))
  both := fun left right => .boolean .and [left, right]
  aggregate := fun _ operand distinct => .ok (.aggregate .count operand distinct)
  traversalSpec := fun _ _ _ _ _ => .error (.value "the sample Binding has no relations")
  schemaDocument := fun _ _ _ definition => .ok definition
  scopeFingerprint := fun context => context.tenant.getD ""

def workOperations : OperationCompiler Json.Object :=
  ⟨workSettings, PostgreSQLQueryTranslator.workTranslator, workCompiler, workLibrary⟩

/-- A request about the work queue. -/
def workRequest (method version : String) (input : Json.Object) : ExecutionRequest where
  operation := ⟨"structured", "meridian.structured." ++ method, version, [workLayout.ref], input,
    false⟩
  bindingId := "postgresql-test"
  registryFingerprint := "registry"
  context := workOperation
  remainingMs := none

end MeridianPostgreSQL.Operations
