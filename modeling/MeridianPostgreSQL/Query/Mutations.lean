import MeridianPostgreSQL.Migration.LogicalImport

/-! # Mutations before they are written

The writing statements of the adapter as data: what each inserts, assigns and
requires. Every one that is emitted is the text of one of these. -/

namespace MeridianPostgreSQL.Query

open Settings

inductive Mutation where
  | insert (columns : List String) (values : List DMLStatement)
      (upsert : Option (List String × List String))
  | update (assignments : List (String × DMLStatement)) (condition : DMLStatement)
      (expected : Option Json)
  | replace (assignments : List (String × DMLStatement)) (condition : DMLStatement)
  | delete (condition : DMLStatement) (expected : Option Json)
  | claim (assignments : List (String × DMLStatement)) (keys : List String)
      (condition : DMLStatement) (limit : Nat)
  | importRow (columns : List String) (values : List DMLStatement) (keys taken : List String)
      (first : String)

/-! ## Text -/

def assignment (value : String × DMLStatement) : DMLStatement :=
  ⟨[Piece.name value.1, .text " = "] ++ value.2.command, value.2.parameters⟩

def assignmentList (assignments : List (String × DMLStatement)) : DMLStatement :=
  valueList (assignments.map assignment)

/-- Assignments that advance the version. -/
def advanceClause (assignments : List (String × DMLStatement)) : DMLStatement :=
  let assigned := assignmentList assignments
  ⟨assigned.command ++ [Piece.text DMLCompiler.recordVersionBump], assigned.parameters⟩

/-- Without assignments a record keeps its version. -/
def replaceClause (assignments : List (String × DMLStatement)) : DMLStatement :=
  if assignments.isEmpty then ⟨[.text "__updated_at = t.__updated_at"], []⟩
  else advanceClause assignments

/-- Columns that take the values of the row that could not be inserted. -/
def takenColumns (columns : List String) : Sql Origin :=
  joined ", " (columns.map fun column =>
    [.name column, .text " = EXCLUDED.", .name column])

def conflictClause : Option (List String × List String) → Sql Origin
  | none => []
  | some (keys, columns) =>
      [Piece.text " ON CONFLICT ("] ++ nameList keys ++ [Piece.text ") DO UPDATE SET "] ++
        if columns.isEmpty then [.text "__updated_at = t.__updated_at"]
        else takenColumns columns ++ [Piece.text DMLCompiler.recordVersionBump]

def Mutation.statement (compiler : DMLCompiler) (layout : ResourceLayout) :
    Mutation → DMLStatement
  | .insert columns values upsert =>
      let selected := valueList values
      ⟨[Piece.text "INSERT INTO "] ++ compiler.table layout ++ [Piece.text " AS t ("] ++
          nameList columns ++ [Piece.text ") VALUES ("] ++ selected.command ++ [Piece.text ")"] ++
          conflictClause upsert ++ [Piece.text " RETURNING "] ++ DMLCompiler.returning layout "t",
        selected.parameters⟩
  | .update assignments condition expected =>
      let changes := advanceClause assignments
      let version := DMLCompiler.versionCheck expected
      ⟨[Piece.text "UPDATE "] ++ compiler.table layout ++ [Piece.text " AS t SET "] ++
          changes.command ++ [Piece.text " WHERE "] ++ condition.command ++ version.command ++
          [Piece.text " RETURNING "] ++ DMLCompiler.returning layout "t",
        changes.parameters ++ condition.parameters ++ version.parameters⟩
  | .replace assignments condition =>
      let changes := replaceClause assignments
      ⟨[Piece.text "UPDATE "] ++ compiler.table layout ++ [Piece.text " AS t SET "] ++
          changes.command ++ [Piece.text " WHERE "] ++ condition.command ++
          [Piece.text " RETURNING "] ++
          DMLCompiler.returning layout "t", changes.parameters ++ condition.parameters⟩
  | .delete condition expected =>
      let version := DMLCompiler.versionCheck expected
      ⟨[Piece.text "DELETE FROM "] ++ compiler.table layout ++ [Piece.text " AS t WHERE "] ++
          condition.command ++ version.command ++ [Piece.text " RETURNING "] ++
          DMLCompiler.returning layout "t", condition.parameters ++ version.parameters⟩
  | .claim assignments keys condition limit =>
      let changes := advanceClause assignments
      ⟨[Piece.text "WITH candidates AS (SELECT "] ++ nameList keys ++ [Piece.text " FROM "] ++
          compiler.table layout ++ [Piece.text " AS c WHERE "] ++ condition.command ++
          [Piece.text " ORDER BY "] ++ nameList keys ++
          [Piece.text " FOR UPDATE SKIP LOCKED LIMIT ", .slot .limit, .text ") UPDATE "] ++
          compiler.table layout ++ [Piece.text " AS t SET "] ++ changes.command ++
          [Piece.text " FROM candidates AS c WHERE "] ++
          joined " AND " (keys.map fun column =>
            [.text "t.", .name column, .text " = c.", .name column]) ++
          [Piece.text " RETURNING "] ++ DMLCompiler.returning layout "t",
        condition.parameters ++ [⟨.limit, .plain (.int limit)⟩] ++ changes.parameters⟩
  | .importRow columns values keys taken first =>
      let selected := valueList values
      ⟨[Piece.text "INSERT INTO "] ++ compiler.table layout ++
          [Piece.text " ("] ++ nameList columns ++
          [Piece.text ") VALUES ("] ++ selected.command ++ [Piece.text ") ON CONFLICT ("] ++
          nameList keys ++ [Piece.text ") DO UPDATE SET "] ++
          if taken.isEmpty then
            [.name first, .text " = ", .name layout.table.text, .text ".", .name first]
          else takenColumns taken, selected.parameters⟩

/-! ## What is written -/

namespace DMLCompiler

variable (compiler : DMLCompiler) (layout : ResourceLayout) (context : OperationContext)

def insertMutation (scope : List (String × String)) (values : List (String × DMLStatement))
    (upsert : Option (List String × List String)) : Mutation :=
  .insert (compiler.settings.scopeColumns ++ values.map Prod.fst)
    (scopeParameters scope ++ values.map Prod.snd) upsert

def appendMutation (data : Option Json) : Compiled Mutation :=
  match data with
  | some (.object data) => do
      checkFields "append" layout data
      let scope ← compiler.scopeValues context
      let values ← fieldValues layout data
      .ok (compiler.insertMutation scope values none)
  | _ => .error (.type "evidence.append requires a data object")

/-- The assignments of `_assignments`. -/
def assignedValues (changes : Json.Object) : Compiled (List (String × DMLStatement)) :=
  let unknown := (Json.names changes).filter fun name => name ∉ layout.fieldNames
  let immutable := (Json.names changes).filter fun name =>
    name ∈ layout.identity ∨ (layout.field name).any fun field => !field.mutable
  if changes = [] then .error (.value "mutation changes cannot be empty")
  else if unknown ≠ [] ∨ immutable ≠ [] then .error (.value
    s!"mutation fields invalid: unknown={reprNames unknown}, immutable={reprNames immutable}")
  else do
    compiler.validateRelationValues layout changes
    fieldValues layout changes

/-- The assignments of a put that replaces a record. -/
def replacedValues (data : Json.Object) : Compiled (List (String × DMLStatement)) :=
  (mutableFields layout).mapM fun field => do
    let value ← fieldValue field ((Json.get data field.name).getD .null)
    .ok (field.column.text, value)

def conditionalPutMutation (data : Json.Object) (expected : Json) : Compiled Mutation :=
  let identity := identityValues layout data
  if identity.length ≠ layout.identity.length then
    .error (.value "conditional put requires every identity field")
  else do
    let changes ← compiler.assignedValues layout (data.filter fun entry =>
      entry.1 ∉ layout.identity)
    let condition ← compiler.condition layout identity context "t"
    .ok (.update changes condition (some expected))

def updatePutMutation (data : Json.Object) : Compiled Mutation := do
  let changes ← replacedValues layout data
  let identity ← layout.identity.mapM fun name => do
    let value ← lookupKey data name
    .ok (name, value)
  let condition ← compiler.condition layout identity context "t"
  .ok (.replace changes condition)

def mutableColumns : List String := (mutableFields layout).map fun field => field.column.text

/-- What `_put` writes, past the checks of its input. -/
def recordMutation (mode : PutMode) (expected : Option Json) (data : Json.Object) :
    Compiled Mutation := do
  let scope ← compiler.scopeValues context
  let values ← fieldValues layout data
  match expected with
  | some expected => compiler.conditionalPutMutation layout context data expected
  | none => do
      let keys ← compiler.keyColumns layout
      match mode with
      | .update => compiler.updatePutMutation layout context data
      | .upsert => .ok (compiler.insertMutation scope values (some (keys, mutableColumns layout)))
      | .ifAbsent => .ok (compiler.insertMutation scope values none)

def putMutation (input : Json.Object) : Compiled Mutation := do
  let mode ← putMode input
  let expected ← putVersion mode input
  match Json.get input "data" with
  | some (.object data) => do
      checkFields "put" layout data
      compiler.validateRelationValues layout data
      compiler.recordMutation layout context mode expected data
  | _ => .error (.type "structured.put data must be an object")

def patchMutation (input : Json.Object) : Compiled Mutation :=
  match Json.get input "where", Json.get input "changes" with
  | some (.object filter), some (.object changes) => do
      let changes ← compiler.assignedValues layout changes
      let condition ← compiler.condition layout filter context "t"
      .ok (.update changes condition (member input "expectedVersion"))
  | _, _ => .error (.type "structured.patch where and changes must be objects")

def deleteMutation (input : Json.Object) : Compiled Mutation :=
  match Json.get input "where" with
  | some (.object filter) => do
      let condition ← compiler.condition layout filter context "t"
      .ok (.delete condition (member input "expectedVersion"))
  | _ => .error (.type "structured.delete where must be an object")

def claimMutation (filter changes : Json.Object) (limit : Nat) : Compiled Mutation :=
  if compiler.settings.readOnly then
    .error (.value "read compatibility Binding is read-only")
  else if limit < 1 ∨ 500 < limit then
    .error (.value "atomic claim limit must be between 1 and 500")
  else do
    let condition ← compiler.condition layout filter context "c"
    let changes ← compiler.assignedValues layout changes
    let keys ← compiler.keyColumns layout
    .ok (.claim changes keys condition limit)

/-- The column that an import keeps when there is nothing to take. -/
def keptColumn : Compiled String :=
  match mutableFields layout, layout.identity with
  | [], name :: _ => (namedField layout name).map fun field => field.column.text
  | [], [] => .error (.key "")
  | _, _ => .ok ""

def importMutation (scope : List (String × String)) (values : Json.Object) :
    Compiled Mutation := do
  compiler.validateRelationValues layout values
  let fields ← fieldValues layout values
  let keys ← compiler.keyColumns layout
  let first ← keptColumn layout
  .ok (.importRow (compiler.settings.scopeColumns ++ fields.map Prod.fst)
    (scopeParameters scope ++ fields.map Prod.snd) keys (mutableColumns layout) first)

end DMLCompiler

/-! ## What is emitted -/

theorem bind_map {α β γ : Type} (first : Compiled α) (next : α → Compiled β) (f : β → γ) :
    (first >>= next).map f = first >>= fun value => (next value).map f := by
  cases first <;> rfl

theorem map_bind {α β γ : Type} (first : Compiled α) (f : α → β) (next : β → Compiled γ) :
    first.map f >>= next = first >>= fun value => next (f value) := by
  cases first <;> rfl

namespace DMLCompiler

variable (compiler : DMLCompiler) (layout : ResourceLayout) (context : OperationContext)

theorem insertion_statement (scope : List (String × String))
    (values : List (String × DMLStatement)) :
    (⟨(compiler.insertion layout scope values).command ++ [Piece.text " RETURNING "] ++
        returning layout "t", (compiler.insertion layout scope values).parameters⟩ :
      DMLStatement) = (compiler.insertMutation scope values none).statement compiler layout := by
  simp [insertion, insertMutation, Mutation.statement, conflictClause]

theorem upsert_statement (scope : List (String × String))
    (values : List (String × DMLStatement)) (keys : List String) :
    (⟨(compiler.insertion layout scope values).command ++ upsertClause layout keys ++
        [Piece.text " RETURNING "] ++ returning layout "t",
        (compiler.insertion layout scope values).parameters⟩ : DMLStatement) =
      (compiler.insertMutation scope values (some (keys, mutableColumns layout))).statement
        compiler layout := by
  by_cases empty : mutableFields layout = []
  · simp [insertion, insertMutation, Mutation.statement, conflictClause, upsertClause,
      excludedFields, empty, mutableColumns]
  · simp [insertion, insertMutation, Mutation.statement, conflictClause, upsertClause,
      excludedFields, empty, mutableColumns, takenColumns, Function.comp_def]

theorem append_eq (data : Option Json) :
    (compiler.append layout data context).map DMLCommand.statement =
      (compiler.appendMutation layout context data).map
        (Mutation.statement compiler layout) := by
  cases data with
  | none => rfl
  | some data =>
      cases data with
      | object data =>
          simp only [append, appendMutation, bind_map, insertion_statement]
          rfl
      | _ => rfl

theorem assignments_eq (changes : Json.Object) : compiler.assignments layout changes =
    (compiler.assignedValues layout changes).map assignmentList := by
  unfold assignments assignedValues
  dsimp only
  split
  · rfl
  · split
    · rfl
    · simp only [bind_map]
      congr 1

theorem bind_congr {α β : Type} {first : Compiled α} {next other : α → Compiled β}
    (same : ∀ value, first = .ok value → next value = other value) :
    first >>= next = first >>= other := by
  cases first with
  | error error => rfl
  | ok value => exact same value rfl

/-- An update is the text of its mutation. -/
theorem update_statement (changes : List (String × DMLStatement)) (condition : DMLStatement)
    (expected : Option Json) :
    (⟨[Piece.text "UPDATE "] ++ compiler.table layout ++ [Piece.text " AS t SET "] ++
        (assignmentList changes).command ++ [Piece.text recordVersionBump, .text " WHERE "] ++
        condition.command ++ (versionCheck expected).command ++ [Piece.text " RETURNING "] ++
        returning layout "t",
      (assignmentList changes).parameters ++ condition.parameters ++
        (versionCheck expected).parameters⟩ : DMLStatement) =
      (Mutation.update changes condition expected).statement compiler layout := by
  simp [Mutation.statement, advanceClause]

theorem conditionalPut_eq (data : Json.Object) (expected : Json) :
    compiler.conditionalPut layout data expected context =
      (compiler.conditionalPutMutation layout context data expected).map
        (Mutation.statement compiler layout) := by
  unfold conditionalPut conditionalPutMutation
  dsimp only
  split
  · rfl
  · rw [bind_map, assignments_eq, map_bind]
    apply bind_congr
    intro changes _
    rw [bind_map]
    apply bind_congr
    intro condition _
    exact congrArg Except.ok
      (update_statement compiler layout changes condition (some expected))

/-- The assignment of one field of a replaced record. -/
def replacedValue (data : Json.Object) (field : FieldLayout) :
    Compiled (String × DMLStatement) := do
  let value ← fieldValue field ((Json.get data field.name).getD .null)
  .ok (field.column.text, value)

theorem replacedAssignments_eq (data : Json.Object) (fields : List FieldLayout) :
    (fields.mapM fun field => do
      let value ← fieldValue field ((Json.get data field.name).getD .null)
      .ok (⟨[Piece.name field.column.text, .text " = "] ++ value.command, value.parameters⟩ :
        DMLStatement) : Compiled (List DMLStatement)) =
      (fields.mapM (replacedValue data)).map (List.map assignment) := by
  induction fields with
  | nil => rfl
  | cons field rest induction =>
      rw [List.mapM_cons, List.mapM_cons, induction, replacedValue]
      cases fieldValue field ((Json.get data field.name).getD .null) with
      | error error => rfl
      | ok value => cases rest.mapM (replacedValue data) <;> rfl

theorem replacedFields_eq (data : Json.Object) : replacedFields layout data =
    (replacedValues layout data).map replaceClause := by
  have values : replacedValues layout data = (mutableFields layout).mapM (replacedValue data) :=
    rfl
  unfold replacedFields
  rw [replacedAssignments_eq, map_bind, values]
  cases compiled : (mutableFields layout).mapM (replacedValue data) with
  | error error => rfl
  | ok values =>
      have length := (mapM_eq_ok compiled).length_eq
      by_cases empty : mutableFields layout = []
      · rw [empty] at length
        cases List.length_eq_zero_iff.mp length.symm
        simp [empty, bind, Except.bind, Except.map, replaceClause]
      · have given : values ≠ [] := by
          intro none
          rw [none] at length
          exact empty (List.length_eq_zero_iff.mp length)
        simp [empty, given, bind, Except.bind, Except.map, replaceClause, advanceClause,
          assignmentList]

theorem updatePut_eq (data : Json.Object) : compiler.updatePut layout data context =
    (compiler.updatePutMutation layout context data).map
      (Mutation.statement compiler layout) := by
  unfold updatePut updatePutMutation
  rw [bind_map, replacedFields_eq, map_bind]
  apply bind_congr
  intro changes _
  rw [bind_map]
  apply bind_congr
  intro identity _
  rw [bind_map]
  apply bind_congr
  intro condition _
  simp [Except.map, Mutation.statement]

theorem putStatement_eq (mode : PutMode) (expected : Option Json) (data : Json.Object) :
    compiler.putStatement layout mode expected data context =
      (compiler.recordMutation layout context mode expected data).map
        (Mutation.statement compiler layout) := by
  unfold putStatement recordMutation
  rw [bind_map]
  apply bind_congr
  intro scope _
  rw [bind_map]
  apply bind_congr
  intro values _
  cases expected with
  | some expected => exact conditionalPut_eq compiler layout context data expected
  | none =>
      dsimp only
      rw [bind_map]
      apply bind_congr
      intro keys _
      cases mode with
      | update => exact updatePut_eq compiler layout context data
      | upsert => exact congrArg Except.ok (upsert_statement compiler layout scope values keys)
      | ifAbsent => exact congrArg Except.ok (insertion_statement compiler layout scope values)

theorem put_eq (input : Json.Object) :
    (compiler.put layout input context).map DMLCommand.statement =
      (compiler.putMutation layout context input).map
        (Mutation.statement compiler layout) := by
  unfold put putMutation
  rw [bind_map, bind_map]
  apply bind_congr
  intro mode _
  rw [bind_map, bind_map]
  apply bind_congr
  intro expected _
  cases Json.get input "data" with
  | none => rfl
  | some data =>
      cases data with
      | object data =>
          simp only [bind_map, putStatement_eq, map_bind]
          apply bind_congr
          intro _ _
          apply bind_congr
          intro _ _
          cases compiler.recordMutation layout context mode expected data <;> rfl
      | _ => rfl

theorem patch_eq (input : Json.Object) :
    (compiler.patch layout input context).map DMLCommand.statement =
      (compiler.patchMutation layout context input).map
        (Mutation.statement compiler layout) := by
  unfold patch patchMutation
  cases Json.get input "where" with
  | none => rfl
  | some filter =>
      cases filter with
      | object filter =>
          cases Json.get input "changes" with
          | none => rfl
          | some changes =>
              cases changes with
              | object changes =>
                  simp only [bind_map, assignments_eq, map_bind]
                  apply bind_congr
                  intro changes _
                  apply bind_congr
                  intro condition _
                  exact congrArg Except.ok (update_statement compiler layout changes condition
                    (member input "expectedVersion"))
              | _ => rfl
      | _ => rfl

theorem delete_eq (input : Json.Object) :
    (compiler.delete layout input context).map DMLCommand.statement =
      (compiler.deleteMutation layout context input).map
        (Mutation.statement compiler layout) := by
  unfold delete deleteMutation
  cases Json.get input "where" with
  | none => rfl
  | some filter =>
      cases filter with
      | object filter =>
          simp only [bind_map]
          rfl
      | _ => rfl

theorem claim_eq (filter changes : Json.Object) (limit : Nat) :
    (compiler.atomicClaim layout filter changes limit context).map DMLCommand.statement =
      (compiler.claimMutation layout context filter changes limit).map
        (Mutation.statement compiler layout) := by
  unfold atomicClaim claimMutation
  split
  · rfl
  · split
    · rfl
    · simp only [bind_map, assignments_eq, map_bind]
      apply bind_congr
      intro condition _
      apply bind_congr
      intro changes _
      apply bind_congr
      intro keys _
      simp [Except.map, Mutation.statement, advanceClause]

theorem importedFields_eq : Migration.importedFields layout =
    (keptColumn layout).map fun first =>
      if (mutableColumns layout).isEmpty then
        [.name first, .text " = ", .name layout.table.text, .text ".", .name first]
      else takenColumns (mutableColumns layout) := by
  unfold Migration.importedFields keptColumn
  cases fields : mutableFields layout with
  | nil =>
      have none : (mutableColumns layout).isEmpty = true := by
        rw [mutableColumns, fields]
        rfl
      simp only [none, if_true]
      cases layout.identity with
      | nil => rfl
      | cons name rest =>
          dsimp only
          cases namedField layout name <;> rfl
  | cons field rest =>
      simp [Except.map, takenColumns, mutableColumns, fields, Function.comp_def]

theorem import_eq (scope : List (String × String)) (values : Json.Object) :
    Migration.importStatement compiler layout scope values =
      (compiler.importMutation layout scope values).map
        (Mutation.statement compiler layout) := by
  unfold Migration.importStatement importMutation
  simp only [bind_map, importedFields_eq, map_bind]
  rfl

end DMLCompiler

end MeridianPostgreSQL.Query
