import MeridianPostgreSQL.Query.Translator

/-! # Mutations

The statements `DMLCompiler` makes of structured and evidence inputs. -/

namespace MeridianPostgreSQL.Query

open Settings

structure OperationContext where
  tenant : Option String
  scope : List (String × String)

abbrev DMLStatement := BoundStatement Origin DriverValue

inductive Method where
  | put
  | get
  | patch
  | delete
  | append
  | atomicClaim
deriving DecidableEq

structure DMLCommand where
  statement : DMLStatement
  method : Method
  layout : ResourceLayout
  single : Bool
  conditional : Bool

inductive PutMode where
  | ifAbsent
  | update
  | upsert
deriving DecidableEq

/-- The compiler, with the filter parser and the reader of record references
of the storage library. -/
structure DMLCompiler where
  settings : PostgreSQLSettings
  parseFilter : Json.Object → Compiled (Option Expression)
  collectionRef : Json.Object → Compiled String

/-! ## Lists -/

def reprNames (names : List String) : String :=
  "[" ++ ", ".intercalate ((names.mergeSort fun left right => left ≤ right).map fun name =>
    "'" ++ name ++ "'") ++ "]"

/-- A comma-separated list of names. -/
def nameList (names : List String) : Sql Origin :=
  joined ", " (names.map fun name => [.name name])

def valueList (values : List DMLStatement) : DMLStatement :=
  ⟨joined ", " (values.map BoundStatement.command), allParameters values⟩

/-- The parameters of a compiled filter go to the driver as they are. -/
def plainParameters (statement : QueryStatement) : DMLStatement :=
  ⟨statement.command, statement.parameters.map fun parameter =>
    ⟨parameter.origin, .plain parameter.value⟩⟩

/-- `dict.get`, which does not tell an absent member from a null one. -/
def member (input : Json.Object) (name : String) : Option Json :=
  match Json.get input name with
  | some .null => none
  | found => found

/-! ## Values -/

/-- `_value` -/
def fieldValue (field : FieldLayout) (value : Json) : Compiled DMLStatement :=
  if value = .null then
    if field.nullable then
      .ok ⟨[.slot (.value field.name)], [⟨.value field.name, .plain .null⟩]⟩
    else .error (.value s!"field '{field.name}' is not nullable")
  else if field.isJson then
    .ok ⟨[.slot (.value field.name)], [⟨.value field.name, .jsonb value⟩]⟩
  else if field.logicalType = .wgs84Point then do
    let coordinates ← wgs84Coordinates value field.name
    .ok ⟨[.text "ST_SetSRID(ST_MakePoint(", .slot (.longitude field.name), .text ", ",
        .slot (.latitude field.name), .text "), 4326)::geography"],
      [⟨.longitude field.name, .plain (.float coordinates.1)⟩,
        ⟨.latitude field.name, .plain (.float coordinates.2)⟩]⟩
  else do
    let adapted ← adaptDriverValue field value
    .ok ⟨[.slot (.value field.name)], [⟨.value field.name, adapted⟩]⟩

/-- The layout's field of a name that has been checked. -/
def namedField (layout : ResourceLayout) (name : String) : Compiled FieldLayout :=
  match layout.field name with
  | some field => .ok field
  | none => .error (.key name)

/-- The values of a mapping, in its order, with the columns they are for. -/
def fieldValues (layout : ResourceLayout) (data : Json.Object) :
    Compiled (List (String × DMLStatement)) :=
  data.mapM fun entry => do
    let field ← namedField layout entry.1
    let value ← fieldValue field entry.2
    .ok (field.column.text, value)

namespace DMLCompiler

variable (compiler : DMLCompiler)

/-! ## Scope -/

/-- `_scope_values`, with the columns they are for. -/
def scopeValues (context : OperationContext) : Compiled (List (String × String)) :=
  let keys := compiler.settings.scopeKeys.map Identifier.text
  let missing := keys.filter fun key => key ∉ context.scope.map Prod.fst
  let extra := (context.scope.map Prod.fst).filter fun key => key ∉ keys
  match context.tenant with
  | none => .error (.value
      s!"operation scope mismatch: missing={reprNames missing}, extra={reprNames extra}")
  | some tenant =>
      if missing ≠ [] ∨ extra ≠ [] then .error (.value
        s!"operation scope mismatch: missing={reprNames missing}, extra={reprNames extra}")
      else do
        let values ← keys.mapM fun key => lookupKey context.scope key
        .ok (("__tenant", tenant) :: (keys.map fun key => "__scope_" ++ key).zip values)

/-- The scope values as parameters of an insertion. -/
def scopeParameters (scope : List (String × String)) : List DMLStatement :=
  scope.map fun entry =>
    ⟨[.slot (.scope "" entry.1)], [⟨.scope "" entry.1, .plain (.string entry.2)⟩]⟩

/-- The scope as a condition on the rows of an alias. -/
def scopeCondition (tableAlias : String) (scope : List (String × String)) : DMLStatement :=
  ⟨joined " AND " (scope.map fun entry =>
      ident [tableAlias, entry.1] ++ [Piece.text " = ", .slot (.scope tableAlias entry.1)]),
    scope.map fun entry => ⟨.scope tableAlias entry.1, .plain (.string entry.2)⟩⟩

/-- `_where` -/
def condition (layout : ResourceLayout) (filter : Json.Object) (context : OperationContext)
    (tableAlias : String) : Compiled DMLStatement := do
  let scope ← compiler.scopeValues context
  let expression ← compiler.parseFilter filter
  match expression with
  | none => .ok (scopeCondition tableAlias scope)
  | some expression => do
      let compiled ← Query.compile
        ⟨[(layout.ref.canonical, tableAlias)], [(layout.ref.canonical, layout)]⟩ .condition []
        expression
      .ok (conjunction [scopeCondition tableAlias scope, plainParameters compiled])

/-! ## Checks -/

def checkEndpoint (values : Json.Object) (name : String) (allowed : List String) :
    Compiled Unit :=
  match Json.get values name with
  | none => .ok ()
  | some (.object reference) => do
      let collection ← compiler.collectionRef reference
      if collection ∈ allowed then .ok ()
      else .error (.value
        s!"relation endpoint '{name}' references a Collection outside its pin")
  | some _ => .error (.type s!"relation endpoint '{name}' must be a RecordReference")

/-- `_validate_relation_values` -/
def validateRelationValues (layout : ResourceLayout) (values : Json.Object) :
    Compiled Unit :=
  match layout.relation with
  | none => .ok ()
  | some relation => do
      compiler.checkEndpoint values relation.sourceField relation.sourceCollections
      compiler.checkEndpoint values relation.targetField relation.targetCollections

/-- The fields of an inserted record: all that are not nullable, and no other
than the layout's. -/
def checkFields (operation : String) (layout : ResourceLayout) (data : Json.Object) :
    Compiled Unit :=
  let unknown := (Json.names data).filter fun name => name ∉ layout.fieldNames
  let missing := ((layout.fields.filter fun field => ¬ field.nullable).map
    FieldLayout.name).filter fun name => name ∉ Json.names data
  if unknown ≠ [] ∨ missing ≠ [] then .error (.value
    s!"{operation} fields mismatch: missing={reprNames missing}, unknown={reprNames unknown}")
  else .ok ()

/-! ## Parts of a statement -/

def recordVersionBump : String :=
  ", __record_version = t.__record_version + 1, __updated_at = clock_timestamp()"

/-- `_assignments` -/
def assignments (layout : ResourceLayout) (changes : Json.Object) : Compiled DMLStatement :=
  let unknown := (Json.names changes).filter fun name => name ∉ layout.fieldNames
  let immutable := (Json.names changes).filter fun name =>
    name ∈ layout.identity ∨ (layout.field name).any fun field => !field.mutable
  if changes = [] then .error (.value "mutation changes cannot be empty")
  else if unknown ≠ [] ∨ immutable ≠ [] then .error (.value
    s!"mutation fields invalid: unknown={reprNames unknown}, immutable={reprNames immutable}")
  else do
    compiler.validateRelationValues layout changes
    let values ← fieldValues layout changes
    .ok (valueList (values.map fun value =>
      ⟨[Piece.name value.1, .text " = "] ++ value.2.command, value.2.parameters⟩))

/-- `_returning` -/
def returning (layout : ResourceLayout) (tableAlias : String) : Sql Origin :=
  joined ", " ((recordColumns layout tableAlias).map BoundStatement.command)

def table (layout : ResourceLayout) : Sql Origin := tableName compiler.settings layout

/-- `_key_columns` -/
def keyColumns (layout : ResourceLayout) : Compiled (List String) := do
  let identity ← layout.identity.mapM (namedField layout)
  .ok (compiler.settings.scopeColumns ++ identity.map fun field => field.column.text)

/-- The fields an update of a whole record may change. -/
def mutableFields (layout : ResourceLayout) : List FieldLayout :=
  layout.fields.filter fun field => field.mutable ∧ field.name ∉ layout.identity

/-- `INSERT INTO ... VALUES ...` of the scope and the data. -/
def insertion (layout : ResourceLayout) (scope : List (String × String))
    (values : List (String × DMLStatement)) : DMLStatement :=
  let selected := valueList (scopeParameters scope ++ values.map Prod.snd)
  ⟨[Piece.text "INSERT INTO "] ++ compiler.table layout ++ [Piece.text " AS t ("] ++
      nameList (compiler.settings.scopeColumns ++ values.map Prod.fst) ++
      [Piece.text ") VALUES ("] ++ selected.command ++ [Piece.text ")"], selected.parameters⟩

def versionCheck (expected : Option Json) : DMLStatement :=
  match expected with
  | none => ⟨[.text ""], []⟩
  | some version =>
      ⟨[.text " AND t.__record_version = ", .slot .version], [⟨.version, .plain version⟩]⟩

/-! ## Insertions -/

/-- The record of an append, under either of its names. -/
def appended (input : Json.Object) : Option Json :=
  match Json.get input "data" with
  | some data => some data
  | none => Json.get input "event"

/-- `_append` -/
def append (layout : ResourceLayout) (data : Option Json) (context : OperationContext) :
    Compiled DMLCommand :=
  match data with
  | some (.object data) => do
      checkFields "append" layout data
      let scope ← compiler.scopeValues context
      let values ← fieldValues layout data
      let inserted := compiler.insertion layout scope values
      .ok ⟨⟨inserted.command ++ [Piece.text " RETURNING "] ++ returning layout "t",
        inserted.parameters⟩, .append, layout, true, false⟩
  | _ => .error (.type "evidence.append requires a data object")

/-! ## Puts -/

def putMode (input : Json.Object) : Compiled PutMode :=
  let failure : Compiled PutMode := .error (.value
    "structured.put requires an explicit if_absent, update, or upsert mode")
  match Json.get input "mode" with
  | some (.string mode) =>
      if mode = "if_absent" then .ok .ifAbsent
      else if mode = "update" then .ok .update
      else if mode = "upsert" then .ok .upsert
      else failure
  | _ => failure

def putVersion (mode : PutMode) (input : Json.Object) : Compiled (Option Json) :=
  match member input "expectedVersion" with
  | none => .ok none
  | some expected =>
      if mode = .ifAbsent then .error (.value
        "expectedVersion is invalid with structured.put mode if_absent")
      else
        match expected with
        | .string _ => .ok (some expected)
        | .int _ => .ok (some expected)
        | _ => .error (.type "expectedVersion must be a string or integer")

/-- The identity values of a record. -/
def identityValues (layout : ResourceLayout) (data : Json.Object) : Json.Object :=
  layout.identity.filterMap fun name => (Json.get data name).map fun value => (name, value)

/-- A put that names the version it replaces. -/
def conditionalPut (layout : ResourceLayout) (data : Json.Object) (expected : Json)
    (context : OperationContext) : Compiled DMLStatement :=
  let identity := identityValues layout data
  if identity.length ≠ layout.identity.length then
    .error (.value "conditional put requires every identity field")
  else do
    let changes ← compiler.assignments layout (data.filter fun entry =>
      entry.1 ∉ layout.identity)
    let condition ← compiler.condition layout identity context "t"
    let version := versionCheck (some expected)
    .ok ⟨[Piece.text "UPDATE "] ++ compiler.table layout ++ [Piece.text " AS t SET "] ++
        changes.command ++ [Piece.text recordVersionBump, .text " WHERE "] ++ condition.command ++
        version.command ++ [Piece.text " RETURNING "] ++ returning layout "t",
      changes.parameters ++ condition.parameters ++ version.parameters⟩

/-- Every mutable field is assigned, and a missing one takes null. -/
def replacedFields (layout : ResourceLayout) (data : Json.Object) : Compiled DMLStatement := do
  let values ← (mutableFields layout).mapM fun field => do
    let value ← fieldValue field ((Json.get data field.name).getD .null)
    .ok (⟨[Piece.name field.column.text, .text " = "] ++ value.command, value.parameters⟩ :
      DMLStatement)
  if mutableFields layout = [] then .ok ⟨[.text "__updated_at = t.__updated_at"], []⟩
  else
    let assigned := valueList values
    .ok ⟨assigned.command ++ [Piece.text recordVersionBump], assigned.parameters⟩

/-- A put that replaces a record without a version. -/
def updatePut (layout : ResourceLayout) (data : Json.Object) (context : OperationContext) :
    Compiled DMLStatement := do
  let changes ← replacedFields layout data
  let identity ← layout.identity.mapM fun name => do
    let value ← lookupKey data name
    .ok (name, value)
  let condition ← compiler.condition layout identity context "t"
  .ok ⟨[Piece.text "UPDATE "] ++ compiler.table layout ++ [Piece.text " AS t SET "] ++
      changes.command ++ [Piece.text " WHERE "] ++ condition.command ++
      [Piece.text " RETURNING "] ++ returning layout "t",
    changes.parameters ++ condition.parameters⟩

/-- What an upsert does to the record that is there. -/
def excludedFields (layout : ResourceLayout) : Sql Origin :=
  if mutableFields layout = [] then [.text "__updated_at = t.__updated_at"]
  else
    joined ", " ((mutableFields layout).map fun field =>
      [.name field.column.text, .text " = EXCLUDED.", .name field.column.text]) ++
      [Piece.text recordVersionBump]

def upsertClause (layout : ResourceLayout) (keys : List String) : Sql Origin :=
  [Piece.text " ON CONFLICT ("] ++ nameList keys ++ [Piece.text ") DO UPDATE SET "] ++
    excludedFields layout

/-- `_put`, past the checks of its input. -/
def putStatement (layout : ResourceLayout) (mode : PutMode) (expected : Option Json)
    (data : Json.Object) (context : OperationContext) : Compiled DMLStatement := do
  let scope ← compiler.scopeValues context
  let values ← fieldValues layout data
  match expected with
  | some expected => compiler.conditionalPut layout data expected context
  | none => do
      let keys ← compiler.keyColumns layout
      let inserted := compiler.insertion layout scope values
      match mode with
      | .update => compiler.updatePut layout data context
      | .upsert =>
          .ok ⟨inserted.command ++ upsertClause layout keys ++ [Piece.text " RETURNING "] ++
            returning layout "t", inserted.parameters⟩
      | .ifAbsent =>
          .ok ⟨inserted.command ++ [Piece.text " RETURNING "] ++ returning layout "t",
            inserted.parameters⟩

/-- `_put` -/
def put (layout : ResourceLayout) (input : Json.Object) (context : OperationContext) :
    Compiled DMLCommand := do
  let mode ← putMode input
  let expected ← putVersion mode input
  match Json.get input "data" with
  | some (.object data) => do
      checkFields "put" layout data
      compiler.validateRelationValues layout data
      let statement ← compiler.putStatement layout mode expected data context
      .ok ⟨statement, .put, layout, true, expected.isSome || mode = .update⟩
  | _ => .error (.type "structured.put data must be an object")

/-! ## Reads, patches and deletions -/

/-- `_get` -/
def get (layout : ResourceLayout) (input : Json.Object) (context : OperationContext) :
    Compiled DMLCommand :=
  match Json.get input "where" with
  | some (.object filter) => do
      let condition ← compiler.condition layout filter context "t"
      .ok ⟨⟨[Piece.text "SELECT "] ++ returning layout "t" ++ [Piece.text " FROM "] ++
          compiler.table layout ++ [Piece.text " AS t WHERE "] ++ condition.command ++
          [Piece.text " LIMIT 2"], condition.parameters⟩, .get, layout, true, false⟩
  | _ => .error (.type "structured.get where must be an object")

/-- `_patch` -/
def patch (layout : ResourceLayout) (input : Json.Object) (context : OperationContext) :
    Compiled DMLCommand :=
  match Json.get input "where", Json.get input "changes" with
  | some (.object filter), some (.object changes) => do
      let changes ← compiler.assignments layout changes
      let condition ← compiler.condition layout filter context "t"
      let version := versionCheck (member input "expectedVersion")
      .ok ⟨⟨[Piece.text "UPDATE "] ++ compiler.table layout ++ [Piece.text " AS t SET "] ++
          changes.command ++ [Piece.text recordVersionBump, .text " WHERE "] ++
          condition.command ++ version.command ++ [Piece.text " RETURNING "] ++
          returning layout "t",
        changes.parameters ++ condition.parameters ++ version.parameters⟩, .patch, layout,
        false, (member input "expectedVersion").isSome⟩
  | _, _ => .error (.type "structured.patch where and changes must be objects")

/-- `_delete` -/
def delete (layout : ResourceLayout) (input : Json.Object) (context : OperationContext) :
    Compiled DMLCommand :=
  match Json.get input "where" with
  | some (.object filter) => do
      let condition ← compiler.condition layout filter context "t"
      let version := versionCheck (member input "expectedVersion")
      .ok ⟨⟨[Piece.text "DELETE FROM "] ++ compiler.table layout ++ [Piece.text " AS t WHERE "] ++
          condition.command ++ version.command ++ [Piece.text " RETURNING "] ++
          returning layout "t", condition.parameters ++ version.parameters⟩, .delete, layout,
        false, (member input "expectedVersion").isSome⟩
  | _ => .error (.type "structured.delete where must be an object")

/-- `atomic_claim` -/
def atomicClaim (layout : ResourceLayout) (filter changes : Json.Object) (limit : Nat)
    (context : OperationContext) : Compiled DMLCommand :=
  if compiler.settings.readOnly then
    .error (.value "read compatibility Binding is read-only")
  else if limit < 1 ∨ 500 < limit then
    .error (.value "atomic claim limit must be between 1 and 500")
  else do
    let condition ← compiler.condition layout filter context "c"
    let changes ← compiler.assignments layout changes
    let keys ← compiler.keyColumns layout
    .ok ⟨⟨[Piece.text "WITH candidates AS (SELECT "] ++ nameList keys ++ [Piece.text " FROM "] ++
          compiler.table layout ++ [Piece.text " AS c WHERE "] ++ condition.command ++
          [Piece.text " ORDER BY "] ++ nameList keys ++
          [Piece.text " FOR UPDATE SKIP LOCKED LIMIT ", .slot .limit, .text ") UPDATE "] ++
          compiler.table layout ++ [Piece.text " AS t SET "] ++ changes.command ++
          [Piece.text recordVersionBump, .text " FROM candidates AS c WHERE "] ++
          joined " AND " (keys.map fun column =>
            [.text "t.", .name column, .text " = c.", .name column]) ++
          [Piece.text " RETURNING "] ++ returning layout "t",
        condition.parameters ++ [⟨.limit, .plain (.int limit)⟩] ++ changes.parameters⟩,
      .atomicClaim, layout, false, false⟩

/-! ## Dispatch -/

/-- `compile`. A batch of appends is compiled row by row. -/
def compile (method : Method) (canonical : String) (input : Json.Object)
    (context : OperationContext) : Compiled (List DMLCommand) :=
  if method ≠ .get ∧ compiler.settings.readOnly = true then
    .error (.value "read compatibility Binding is read-only")
  else
    match compiler.settings.layout canonical with
    | none => .error (.key s!"no physical mapping for {canonical}")
    | some layout =>
        match method with
        | .put => (compiler.put layout input context).map fun command => [command]
        | .get => (compiler.get layout input context).map fun command => [command]
        | .patch => (compiler.patch layout input context).map fun command => [command]
        | .delete => (compiler.delete layout input context).map fun command => [command]
        | .append =>
            match appended input with
            | some (.array items) =>
                if items.length < 1 ∨ 10000 < items.length then
                  .error (.value "append batch must contain between 1 and 10000 records")
                else items.mapM fun item => compiler.append layout (some item) context
            | data => (compiler.append layout data context).map fun command => [command]
        | .atomicClaim => .error (.value "DML compiler does not implement 'atomicClaim'")

end DMLCompiler

end MeridianPostgreSQL.Query
