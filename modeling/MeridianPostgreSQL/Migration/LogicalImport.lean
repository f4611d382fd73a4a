import MeridianPostgreSQL.Query.DmlAlignment

/-! # Logical import

The statement `LogicalTransfer.import_rows` makes of each exported line. -/

namespace MeridianPostgreSQL.Migration

open Settings
open Query

variable (compiler : DMLCompiler)

/-- `_scope` -/
def importScope (tenant : String) (scope : List (String × String)) :
    Compiled (List (String × String)) :=
  let keys := compiler.settings.scopeKeys.map Identifier.text
  let missing := keys.filter fun key => key ∉ scope.map Prod.fst
  let extra := (scope.map Prod.fst).filter fun key => key ∉ keys
  if tenant = "" ∨ missing ≠ [] ∨ extra ≠ [] then .error (.value
    s!"scope is incomplete: missing={reprNames missing}, extra={reprNames extra}")
  else do
    let values ← keys.mapM fun key => lookupKey scope key
    .ok (("__tenant", tenant) :: (keys.map fun key => "__scope_" ++ key).zip values)

/-- What an import does to the record that is there. -/
def importedFields (layout : ResourceLayout) : Compiled (Sql Origin) :=
  match DMLCompiler.mutableFields layout, layout.identity with
  | [], name :: _ => do
      let field ← namedField layout name
      .ok [.name field.column.text, .text " = ", .name layout.table.text, .text ".",
        .name field.column.text]
  | [], [] => .error (.key "")
  | fields, _ =>
      .ok (joined ", " (fields.map fun field =>
        [.name field.column.text, .text " = EXCLUDED.", .name field.column.text]))

/-- The statement of one record. -/
def importStatement (layout : ResourceLayout) (scope : List (String × String))
    (values : Json.Object) : Compiled DMLStatement := do
  compiler.validateRelationValues layout values
  let fields ← fieldValues layout values
  let keys ← compiler.keyColumns layout
  let update ← importedFields layout
  let selected := valueList (DMLCompiler.scopeParameters scope ++ fields.map Prod.snd)
  .ok ⟨[Piece.text "INSERT INTO "] ++ compiler.table layout ++ [Piece.text " ("] ++
      nameList (compiler.settings.scopeColumns ++ fields.map Prod.fst) ++
      [Piece.text ") VALUES ("] ++ selected.command ++ [Piece.text ") ON CONFLICT ("] ++
      nameList keys ++ [Piece.text ") DO UPDATE SET "] ++ update, selected.parameters⟩

/-- What hashing a value raises. -/
def unhashable : Json → Option CompileError
  | .array _ => some (.type "unhashable type: 'list'")
  | .object _ => some (.type "unhashable type: 'dict'")
  | _ => none

def recordNames : List Json := [.string "resource", .string "values"]

/-- What `set(payload)` and `payload["values"]` raise for a payload that is no
object. A list of the two names passes the first. -/
def payloadError : Json → CompileError
  | .array items =>
      match items.findSome? unhashable with
      | some error => error
      | none =>
          if (∀ item ∈ items, item ∈ recordNames) ∧ ∀ name ∈ recordNames, name ∈ items then
            .type "list indices must be integers or slices, not str"
          else .value "invalid Meridian logical export record"
  | .null => .type "'NoneType' object is not iterable"
  | .bool _ => .type "'bool' object is not iterable"
  | .int _ => .type "'int' object is not iterable"
  | .float _ => .type "'float' object is not iterable"
  | _ => .value "invalid Meridian logical export record"

/-- What `resources[resource]` raises for a Resource that is no text. -/
def resourceError (resource : Json) : CompileError :=
  (unhashable resource).getD (.key "")

/-- One line of `import_rows`, after `json.loads`. -/
def importLine (scope : List (String × String)) (payload : Json) : Compiled DMLStatement :=
  match payload with
  | .object record =>
      match Json.get record "resource", Json.get record "values" with
      | some resource, some (.object values) =>
          if ¬ (Json.names record).Perm ["resource", "values"] then
            .error (.value "invalid Meridian logical export record")
          else
            match resource with
            | .string canonical =>
                match compiler.settings.layout canonical with
                | none => .error (.key canonical)
                | some layout =>
                    if layout.isRegistry then .error (.value
                      "Schema metadata requires SchemaAPI publication or Platform restore")
                    else if ¬ (Json.names values).Perm layout.fieldNames then .error (.value
                      "logical import fields do not match the pinned layout")
                    else importStatement compiler layout scope values
            | resource => .error (resourceError resource)
      | _, _ => .error (.value "invalid Meridian logical export record")
  | payload => .error (payloadError payload)

/-- `import_rows`: the statements of the lines, in order. -/
def importRows (tenant : String) (scope : List (String × String)) (lines : List Json) :
    Compiled (List DMLStatement) :=
  if compiler.settings.readOnly then
    .error (.value "read compatibility Binding is read-only")
  else do
    let scope ← importScope compiler tenant scope
    lines.mapM (importLine compiler scope)

/-! ## Alignment -/

section Alignment

variable {compiler : DMLCompiler} {layout : ResourceLayout} {scope : List (String × String)}

/-- What an imported record binds. -/
def importBindings (scope : List (String × String)) (values : Json.Object) : Bindings :=
  ⟨scope, values, none, none, none⟩

theorem slots_importedFields {update : Sql Origin}
    (compiled : importedFields layout = .ok update) : slots update = [] := by
  unfold importedFields at compiled
  split at compiled
  · rcases bind_eq_ok compiled with ⟨field, _, compiled⟩
    cases compiled
    rfl
  · exact nomatch compiled
  · cases compiled
    simp [List.flatMap_map]

theorem importStatement_supplied {values : Json.Object} {statement : DMLStatement}
    (compiled : importStatement compiler layout scope values = .ok statement) :
    Supplied (DMLSupplies (importBindings scope values)) statement := by
  unfold importStatement at compiled
  rcases bind_eq_ok compiled with ⟨_, _, compiled⟩
  rcases bind_eq_ok compiled with ⟨fields, fieldsOk, compiled⟩
  rcases bind_eq_ok compiled with ⟨keys, _, compiled⟩
  rcases bind_eq_ok compiled with ⟨update, updateOk, compiled⟩
  cases compiled
  have each : ∀ value ∈ DMLCompiler.scopeParameters scope ++ fields.map Prod.snd,
      Supplied (DMLSupplies (importBindings scope values)) value := by
    intro value listed
    rcases List.mem_append.mp listed with inside | inside
    · exact DMLCompiler.scopeParameters_supplied value inside
    · rcases List.mem_map.mp inside with ⟨entry, held, rfl⟩
      exact fieldValues_supplied (List.Subset.refl values) fieldsOk entry held
  have selected := valueList_supplied each
  exact ⟨by simp [DMLCompiler.table, tableName, slots_nameList, slots_importedFields updateOk,
    selected.aligned.slots_eq], selected.values⟩

/-- Every imported line binds its own values. -/
theorem importLine_supplied {payload : Json} {statement : DMLStatement}
    (compiled : importLine compiler scope payload = .ok statement) :
    ∃ record values, payload = .object record ∧
      Json.get record "values" = some (.object values) ∧
      Supplied (DMLSupplies (importBindings scope values)) statement := by
  unfold importLine at compiled
  repeat' split at compiled
  all_goals try contradiction
  exact ⟨_, _, rfl, ‹_›, importStatement_supplied compiled⟩

end Alignment

end MeridianPostgreSQL.Migration
