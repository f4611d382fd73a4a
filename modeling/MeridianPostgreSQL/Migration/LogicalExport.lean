import MeridianPostgreSQL.Query.RecordVersions
import MeridianPostgreSQL.Query.ReturnedValues

/-! # Logical export

The statement `LogicalTransfer.export_rows` makes of each resource, and the
lines it makes of the rows. -/

namespace MeridianPostgreSQL.Migration

open Settings
open Query

/-! ## Statements -/

/-- What an export reads of a table. -/
structure Selection where
  fields : List FieldLayout
  scope : List (String × String)
  order : List String

/-- A column under the name of its field. -/
def exportedColumn (field : FieldLayout) : Sql Origin :=
  (if field.isPoint then
    [.text "jsonb_build_object('longitude', ST_X((", .name field.column.text,
      .text ")::geometry), 'latitude', ST_Y((", .name field.column.text, .text ")::geometry))"]
  else [.name field.column.text]) ++ [Piece.text " AS ", .name field.name]

def Selection.statement (compiler : DMLCompiler) (layout : ResourceLayout)
    (selection : Selection) : DMLStatement :=
  ⟨[Piece.text "SELECT "] ++ joined ", " (selection.fields.map exportedColumn) ++
      [Piece.text " FROM "] ++ compiler.table layout ++ [Piece.text " WHERE "] ++
      joined " AND " (selection.scope.map fun entry =>
        [.name entry.1, .text " = ", .slot (.scope "" entry.1)]) ++
      [Piece.text " ORDER BY "] ++ nameList selection.order,
    selection.scope.map fun entry => ⟨.scope "" entry.1, .plain (.string entry.2)⟩⟩

variable (compiler : DMLCompiler)

/-- What `export_rows` reads of one resource. -/
def exportSelection (scope : List (String × String)) (resource : String) :
    Compiled (ResourceLayout × Selection) :=
  match compiler.settings.layout resource with
  | none => .error (.key resource)
  | some layout =>
      if layout.isRegistry then .error (.value
        "Schema metadata requires SchemaAPI snapshot or Platform backup")
      else do
        let identity ← layout.identity.mapM (namedField layout)
        .ok (layout, ⟨layout.fields, scope, identity.map fun field => field.column.text⟩)

/-- `export_rows`: what it reads, resource by resource. -/
def exportSelections (tenant : String) (scope : List (String × String))
    (resources : List String) : Compiled (List (ResourceLayout × Selection)) := do
  let scope ← importScope compiler tenant scope
  resources.mapM (exportSelection compiler scope)

/-! ## Lines -/

/-- A row as the server stores it. -/
abbrev StoredRow := Query.Record (Option StoredValue)

abbrev StoredTables := ResourceLayout → List StoredRow

def InScope (scope : List (String × String)) (record : StoredRow) : Prop :=
  ∀ entry ∈ scope, record.contents entry.1 = some (.text entry.2)

instance (scope : List (String × String)) : DecidablePred (InScope scope) := fun record =>
  inferInstanceAs (Decidable (∀ entry ∈ scope, record.contents entry.1 = some (.text entry.2)))

variable (session : Session) (geography : Geography)

/-- The row of a record, where the driver can load it. -/
def shownValues (layout : ResourceLayout) (record : StoredRow) :
    Option Json.Object :=
  layout.fields.mapM fun field =>
    (returned session geography field (record.contents field.column.text)).map fun shown =>
      (field.name, shown)

/-- The line of a row, after `json.dumps` has sorted its members. -/
def exportLine (layout : ResourceLayout) (record : StoredRow) : Option Json :=
  (shownValues session geography layout record).map fun values =>
    Json.canonical (.object [("resource", .string layout.ref.canonical),
      ("values", .object values)])

/-- The lines of an export: the rows of the scope, resource by resource, each in
the order of the server. -/
structure Exported (source : StoredTables) (tenant : String) (scope : List (String × String))
    (resources : List String) (selections : List (ResourceLayout × Selection))
    (rows : ResourceLayout → List StoredRow) (lines : List Json) : Prop where
  selected : exportSelections compiler tenant scope resources = .ok selections
  found : ∀ entry ∈ selections,
    (rows entry.1).Perm ((source entry.1).filter (InScope entry.2.scope ·))
  written : (selections.flatMap fun entry => (rows entry.1).map fun row => (entry.1, row)).mapM
    (fun item => exportLine session geography item.1 item.2) = some lines

/-! ## What a selection binds -/

section Selected

variable {compiler} {layout : ResourceLayout} {scope : List (String × String)}

theorem slots_exportedColumn (field : FieldLayout) : slots (exportedColumn field) = [] := by
  unfold exportedColumn
  split <;> rfl

/-- Every parameter of an export is the value of its scope column. -/
theorem selection_supplied (selection : Selection) :
    Supplied (DMLSupplies (importBindings selection.scope []))
      (selection.statement compiler layout) := by
  constructor
  · have columns : (selection.fields.map exportedColumn).flatMap slots = [] := by
      simp [List.flatMap_map, slots_exportedColumn]
    have owners : (selection.scope.map fun entry : String × String =>
        ([.name entry.1, .text " = ", .slot (.scope "" entry.1)] : Sql Origin)).flatMap slots =
          selection.scope.map fun entry => .scope "" entry.1 := by
      rw [List.flatMap_map, List.map_eq_flatMap]
      rfl
    simp [Aligned, Selection.statement, DMLCompiler.table, tableName, slots_nameList, columns,
      owners, Function.comp_def]
  · intro parameter listed
    obtain ⟨entry, held, rfl⟩ := List.mem_map.mp listed
    exact .scope held

end Selected

end MeridianPostgreSQL.Migration
