import MeridianPostgreSQL.Foundation.KeyedLoads
import MeridianPostgreSQL.Migration.LogicalExport
import MeridianPostgreSQL.Query.AddressedPuts
import MeridianPostgreSQL.Query.ScopeIsolation

/-! # Logical transfer

What `LogicalTransfer.import_rows` makes of each line and puts into the tables,
and when the line of an exported row makes a copy of the row. -/

namespace MeridianPostgreSQL.Migration

open Settings
open Query
open KeyedLoads

/-! ## Records of lines -/

variable (compiler : DMLCompiler)

/-- What the statement of a line writes, before it is written. -/
def importTarget (scope : List (String × String)) (payload : Json) :
    Compiled (ResourceLayout × Mutation) :=
  match payload with
  | .object record =>
      match Json.get record "resource", Json.get record "values" with
      | some resource, some (.object values) =>
          if ¬ (Json.names record).Perm ["resource", "values"] then
            .error (.value "invalid Meridian logical export record")
          else
            match resource with
            | .string canonical =>
                match compiler.settings.layout canonical with
                | none => .error (.key canonical)
                | some layout =>
                    if layout.isRegistry then .error (.value
                      "Schema metadata requires SchemaAPI publication or Platform restore")
                    else if ¬ (Json.names values).Perm layout.fieldNames then .error (.value
                      "logical import fields do not match the pinned layout")
                    else (compiler.importMutation layout scope values).map fun mutation =>
                      (layout, mutation)
            | resource => .error (resourceError resource)
      | _, _ => .error (.value "invalid Meridian logical export record")
  | payload => .error (payloadError payload)

theorem importLine_eq (scope : List (String × String)) (payload : Json) :
    importLine compiler scope payload = (importTarget compiler scope payload).map fun target =>
      target.2.statement compiler target.1 := by
  cases payload with
  | object record =>
      simp only [importLine, importTarget]
      cases Json.get record "resource" with
      | none => rfl
      | some resource =>
          cases Json.get record "values" with
          | none => rfl
          | some values =>
              cases values with
              | object values =>
                  dsimp only
                  split
                  · rfl
                  · cases resource with
                    | string canonical =>
                        dsimp only
                        cases compiler.settings.layout canonical with
                        | none => rfl
                        | some layout =>
                            dsimp only
                            split
                            · rfl
                            · split
                              · rfl
                              · rw [DMLCompiler.import_eq]
                                cases compiler.importMutation layout scope values <;> rfl
                    | _ => rfl
              | _ => rfl
  | _ => rfl

variable (session : Session) (geography : Geography)

/-- What the server stores in a column for a fragment. The columns of the scope
hold texts. -/
def storedColumn (layout : ResourceLayout) (column : String) (fragment : DMLStatement) :
    Option (Option StoredValue) :=
  match layout.fields.find? fun field => field.column.text = column with
  | some field => assigned session geography field fragment
  | none =>
      match fragment.parameters.map Parameter.value with
      | [.plain (.string text)] => some (some (.text text))
      | _ => none

/-- A server that stores the fragments so, one value for all that are equal. -/
def storingEngine (engine : Engine (Option StoredValue)) (layout : ResourceLayout) :
    Engine (Option StoredValue) :=
  { engine with
    null := none
    store := fun column fragment =>
      (storedColumn session geography layout column fragment).join.map StoredValue.normal }

variable (engine : Engine (Option StoredValue))

/-- The record of a line, where the statement is made and the server accepts its
values. -/
def importedRecord (scope : List (String × String)) (payload : Json) :
    Option (ResourceLayout × StoredRow) := do
  let target ← (importTarget compiler scope payload).toOption
  match target.2 with
  | .importRow columns values _ _ _ =>
      if (columns.zip values).all fun entry =>
          (storedColumn session geography target.1 entry.1 entry.2).isSome then
        some (target.1, insertedRecord (storingEngine session geography engine target.1) columns
          values)
      else none
  | _ => none

/-! ## Tables -/

/-- Two rows that a unique index tells apart: nulls are different. -/
def Apart (columns : List String) (first second : StoredRow) : Prop :=
  ∃ column ∈ columns, first.contents column ≠ second.contents column ∨
    first.contents column = none

instance (columns : List String) : DecidableRel (Apart columns) := fun first second =>
  inferInstanceAs (Decidable (∃ column ∈ columns,
    first.contents column ≠ second.contents column ∨ first.contents column = none))

theorem imported_self {Value : Type} (columns : List String) (record : Query.Record Value) :
    imported columns record record = record := by
  have same : takenContents columns record record = record.contents := by
    funext column
    simp [takenContents]
  rw [imported, same]

theorem imported_imported {Value : Type} (columns : List String) (new old : Query.Record Value) :
    imported columns new (imported columns new old) = imported columns new old := by
  have same : takenContents columns new (imported columns new old) =
      takenContents columns new old := by
    funext column
    simp only [imported, takenContents]
    split <;> rfl
  rw [imported, same, imported]

/-- The tables of a Binding under the upserts of an import. -/
def resourceTables (settings : PostgreSQLSettings) :
    Tables ResourceLayout StoredRow (List (Option StoredValue)) where
  key := fun layout => recordKey (primaryKey settings layout)
  merge := fun layout => imported (DMLCompiler.mutableColumns layout)
  fits := fun layout rows => (uniqueColumns settings layout).all fun columns =>
    decide (rows.Pairwise (Apart columns))
  key_merge := by
    intro layout new old same
    apply List.map_congr_left
    intro column listed
    have equal := List.map_inj_left.mp same column listed
    simp only [imported, takenContents]
    split
    · rfl
    · exact equal
  merge_self := fun _ => imported_self _
  merge_merge := fun _ => imported_imported _
  fits_left := by
    intro layout rows more fits
    rw [List.all_eq_true] at fits ⊢
    intro columns listed
    have whole := of_decide_eq_true (fits columns listed)
    exact decide_eq_true (List.pairwise_append.mp whole).1

/-- One line of an import: its record is put, or the import raises. -/
def importInto (scope : List (String × String)) (tables : StoredTables) (line : Json) :
    Option StoredTables :=
  (importedRecord compiler session geography engine scope line).bind
    (put (resourceTables compiler.settings) tables)

/-- `import_rows` in one transaction: the tables after all lines, or none where
it raises. -/
def importAll (tenant : String) (scope : List (String × String)) (target : StoredTables)
    (lines : List Json) : Option StoredTables :=
  if compiler.settings.readOnly then none
  else do
    let scope ← (importScope compiler tenant scope).toOption
    lines.foldlM (importInto compiler session geography engine scope) target

section Imports

variable {compiler session geography engine} {scope : List (String × String)}
  {layout : ResourceLayout} {values : Json.Object} {mutation : Mutation}

theorem importMutation_ok (compiled : compiler.importMutation layout scope values = .ok mutation) :
    ∃ fields first, compiler.validateRelationValues layout values = .ok () ∧
      fieldValues layout values = .ok fields ∧
      mutation = .importRow (compiler.settings.scopeColumns ++ fields.map Prod.fst)
        (DMLCompiler.scopeParameters scope ++ fields.map Prod.snd)
        (primaryKey compiler.settings layout) (DMLCompiler.mutableColumns layout) first := by
  unfold DMLCompiler.importMutation at compiled
  obtain ⟨_, checked, compiled⟩ := Query.bind_eq_ok compiled
  obtain ⟨fields, fieldsOk, compiled⟩ := Query.bind_eq_ok compiled
  obtain ⟨keys, keysOk, compiled⟩ := Query.bind_eq_ok compiled
  obtain ⟨first, _, compiled⟩ := Query.bind_eq_ok compiled
  cases compiled
  exact ⟨fields, first, checked, fieldsOk, by rw [keyColumns_eq keysOk]⟩

theorem importTarget_ok {payload : Json}
    (target : importTarget compiler scope payload = .ok (layout, mutation)) :
    ∃ canonical values, compiler.settings.layout canonical = some layout ∧
      layout.isRegistry = false ∧ compiler.importMutation layout scope values = .ok mutation := by
  unfold importTarget at target
  repeat' split at target
  all_goals try contradiction
  obtain ⟨made, compiled, same⟩ := map_eq_ok target
  cases same
  exact ⟨_, _, ‹_›, eq_false_of_ne_true ‹_›, compiled⟩

/-- A line that is imported runs as the statement that is made of it. -/
theorem importInto_runs {line : Json} {before after : StoredTables}
    (imports : importInto compiler session geography engine scope before line = some after) :
    ∃ layout mutation,
      importLine compiler scope line = .ok (mutation.statement compiler layout) ∧
      Runs (storingEngine session geography engine layout) (primaryKey compiler.settings layout)
        mutation (before layout) (after layout) := by
  obtain ⟨item, made, done⟩ := Option.bind_eq_some_iff.mp imports
  unfold importedRecord at made
  obtain ⟨⟨layout, mutation⟩, target, made⟩ := Option.bind_eq_some_iff.mp made
  have targetOk := ok_of_toOption target
  obtain ⟨_, values, _, _, compiled⟩ := importTarget_ok targetOk
  obtain ⟨fields, first, _, _, rfl⟩ := importMutation_ok compiled
  refine ⟨layout, _, by rw [importLine_eq, targetOk]; rfl, ?_⟩
  dsimp only at made
  split at made
  · cases made
    obtain ⟨_, rfl⟩ := put_eq_some.mp done
    rw [Function.update_self]
    unfold placed
    split
    · rename_i taken
      exact .importOver (List.mem_map.mp taken)
    · rename_i free
      refine .importNew ?_
      intro record listed same
      exact free (List.mem_map.mpr ⟨record, listed, same⟩)
  · cases made

/-- An import makes all its records first: no statement depends on the tables. -/
theorem foldlM_load {lines : List Json} {before after : StoredTables} :
    lines.foldlM (importInto compiler session geography engine scope) before = some after ↔
    ∃ items, lines.mapM (importedRecord compiler session geography engine scope) = some items ∧
      load (resourceTables compiler.settings) before items = some after := by
  induction lines generalizing before with
  | nil => simp [load]
  | cons line rest induction =>
      rw [List.foldlM_cons, List.mapM_cons, importInto]
      cases made : importedRecord compiler session geography engine scope line with
      | none => simp
      | some item =>
          simp only [Option.bind_eq_bind, Option.bind_some, Option.bind_eq_some_iff, induction,
            Option.pure_def, Option.some.injEq]
          constructor
          · rintro ⟨next, done, items, made, loaded⟩
            exact ⟨item :: items, ⟨items, made, rfl⟩, load_cons.mpr ⟨next, done, loaded⟩⟩
          · rintro ⟨_, ⟨items, made, rfl⟩, loaded⟩
            obtain ⟨next, done, loaded⟩ := load_cons.mp loaded
            exact ⟨next, done, items, made, loaded⟩

end Imports

/-! ## Lines of rows -/

/-- The values of a line, as `json.loads` reads them. -/
def lineValues (values : Json.Object) : Json.Object :=
  Json.sortMembers (Json.normalizeMembers id values)

section Lines

variable {compiler session geography engine} {scope : List (String × String)}
  {layout : ResourceLayout} {row : StoredRow} {values : Json.Object}

theorem names_shownValues (shows : shownValues session geography layout row = some values) :
    Json.names values = layout.fieldNames := by
  have pairs := mapM_some_iff.mp shows
  rw [ResourceLayout.fieldNames, Json.names]
  clear shows
  generalize layout.fields = fields at pairs ⊢
  induction pairs with
  | nil => rfl
  | cons head _ induction =>
      obtain ⟨shown, _, rfl⟩ := Option.map_eq_some_iff.mp head
      rw [List.map_cons, List.map_cons, induction]

theorem shown_of_mem (shows : shownValues session geography layout row = some values)
    {field : FieldLayout} (listed : field ∈ layout.fields) :
    ∃ shown, returned session geography field (row.contents field.column.text) = some shown ∧
      (field.name, shown) ∈ values := by
  obtain ⟨entry, inside, made⟩ := exists_related (mapM_some_iff.mp shows) field listed
  obtain ⟨shown, found, rfl⟩ := Option.map_eq_some_iff.mp made
  exact ⟨shown, found, inside⟩

theorem get_lineValues (distinct : (Json.names values).Nodup) (name : String) :
    Json.get (lineValues values) name = (Json.get values name).map Json.canonical := by
  rw [lineValues, Json.get_sortMembers (by rwa [Json.names_normalizeMembers]),
    Json.get_normalizeMembers]
  rfl

theorem names_lineValues (values : Json.Object) :
    (Json.names (lineValues values)).Perm (Json.names values) := by
  rw [← Json.names_normalizeMembers id values]
  exact (Json.normalize_perm id values).map Prod.fst

/-- The line of a row is read as the statement of its values. -/
theorem importTarget_line (held : layout.isRegistry = false)
    (named : compiler.settings.layout layout.ref.canonical = some layout)
    (shows : shownValues session geography layout row = some values) {line : Json}
    (written : exportLine session geography layout row = some line) :
    importTarget compiler scope line =
      (compiler.importMutation layout scope (lineValues values)).map fun mutation =>
        (layout, mutation) := by
  have sorted : Json.sortMembers [("resource", .string layout.ref.canonical),
      ("values", .object (lineValues values))] =
        [("resource", .string layout.ref.canonical), ("values", .object (lineValues values))] := by
    have order : "resource" ≤ "values" := by decide
    exact List.mergeSort_of_pairwise (by simp [order])
  have canonical : line = .object [("resource", .string layout.ref.canonical),
      ("values", .object (lineValues values))] := by
    rw [exportLine, shows, Option.map_some, Option.some.injEq] at written
    rw [← written, ← sorted]
    rfl
  have fields : (Json.names (lineValues values)).Perm layout.fieldNames :=
    names_shownValues shows ▸ names_lineValues values
  have members : Json.names [("resource", Json.string layout.ref.canonical),
      ("values", .object (lineValues values))] = ["resource", "values"] := rfl
  have resource : Json.get [("resource", Json.string layout.ref.canonical),
      ("values", .object (lineValues values))] "resource" =
        some (.string layout.ref.canonical) := rfl
  have content : Json.get [("resource", Json.string layout.ref.canonical),
      ("values", .object (lineValues values))] "values" =
        some (.object (lineValues values)) := rfl
  simp [canonical, importTarget, resource, content, members, named, held, fields]

/-- The record that the values of a line make in a scope. -/
def copied (session : Session) (geography : Geography) (engine : Engine (Option StoredValue))
    (layout : ResourceLayout) (scope : List (String × String)) (values : Json.Object) :
    StoredRow :=
  givenRecord (storingEngine session geography engine layout) layout scope (lineValues values)

/-- A column of the scope is no field's. -/
theorem scope_not_field {context : OperationContext} (valid : layout.check = .ok ())
    (scopeOk : compiler.scopeValues context = .ok scope) {entry : String × String}
    (listed : entry ∈ scope) :
    layout.fields.find? (fun field => field.column.text = entry.1) = none := by
  have column : entry.1 ∈ compiler.settings.scopeColumns :=
    scope_columns scopeOk ▸ List.mem_map_of_mem listed
  rw [List.find?_eq_none]
  intro field inside same
  rw [decide_eq_true_eq] at same
  exact column_not_scope valid inside compiler.settings (same ▸ column)

/-- The values of the scope and of the fields are accepted. -/
theorem accepted_iff {context : OperationContext} (valid : layout.check = .ok ())
    (scopeOk : compiler.scopeValues context = .ok scope)
    {fields : List (String × DMLStatement)} :
    (((compiler.settings.scopeColumns ++ fields.map Prod.fst).zip
        (DMLCompiler.scopeParameters scope ++ fields.map Prod.snd)).all fun entry =>
          (storedColumn session geography layout entry.1 entry.2).isSome) = true ↔
      ∀ entry ∈ fields, (storedColumn session geography layout entry.1 entry.2).isSome = true := by
  have owned : ∀ entry ∈ scope, (storedColumn session geography layout entry.1
      (ownerParameter entry)).isSome = true := by
    intro entry listed
    rw [storedColumn, scope_not_field valid scopeOk listed]
    rfl
  rw [inserted_values scopeOk, List.all_eq_true]
  constructor
  · intro each entry listed
    exact each entry (List.mem_append_right _ listed)
  · intro each entry listed
    rcases List.mem_append.mp listed with inside | inside
    · obtain ⟨owner, held, rfl⟩ := List.mem_map.mp inside
      exact owned owner held
    · exact each entry inside

/-- What a field of a record is written back as. -/
def Restored (session : Session) (geography : Geography) (row : StoredRow)
    (field : FieldLayout) (kept : Option StoredValue) : Prop :=
  ∃ shown, returned session geography field (row.contents field.column.text) = some shown ∧
    restored session geography field shown.canonical = some kept

theorem mem_lineValues (shows : shownValues session geography layout row = some values)
    {entry : String × Json} : entry ∈ lineValues values ↔ ∃ field ∈ layout.fields, ∃ shown,
      returned session geography field (row.contents field.column.text) = some shown ∧
        entry = (field.name, shown.canonical) := by
  have pairs := mapM_some_iff.mp shows
  have members : entry ∈ lineValues values ↔
      ∃ held ∈ values, (held.1, held.2.canonical) = entry := by
    rw [lineValues, Json.sortMembers, (List.mergeSort_perm _ _).mem_iff, normalizeMembers_eq,
      List.mem_map]
    rfl
  rw [members]
  constructor
  · rintro ⟨held, listed, rfl⟩
    obtain ⟨field, inside, made⟩ := exists_related pairs.flip held listed
    obtain ⟨shown, found, rfl⟩ := Option.map_eq_some_iff.mp made
    exact ⟨field, inside, shown, found, rfl⟩
  · rintro ⟨field, inside, shown, found, rfl⟩
    obtain ⟨held, listed, made⟩ := exists_related pairs field inside
    rw [found, Option.map_some, Option.some.injEq] at made
    exact ⟨held, listed, by rw [← made]⟩

section Checked

variable (valid : layout.check = .ok ()) (held : layout.isRegistry = false)

include valid held

theorem fieldValue_named {field : FieldLayout} (listed : field ∈ layout.fields) (shown : Json) :
    (do
      let other ← namedField layout field.name
      let value ← fieldValue other shown
      .ok (other.column.text, value) : Compiled (String × DMLStatement)) =
        (fieldValue field shown).map fun value => (field.column.text, value) := by
  rw [namedField_ok (field_of_mem valid held listed)]
  cases compiled : fieldValue field shown <;> simp [bind, Except.bind, Except.map, compiled]

/-- The statements of the values of a line. -/
theorem mem_fieldValues (shows : shownValues session geography layout row = some values)
    {fields : List (String × DMLStatement)}
    (fieldsOk : fieldValues layout (lineValues values) = .ok fields)
    {entry : String × DMLStatement} : entry ∈ fields ↔
      ∃ field ∈ layout.fields, ∃ shown fragment,
        returned session geography field (row.contents field.column.text) = some shown ∧
          fieldValue field shown.canonical = .ok fragment ∧
          entry = (field.column.text, fragment) := by
  have pairs := mapM_eq_ok fieldsOk
  constructor
  · intro listed
    obtain ⟨_, inside, made⟩ := exists_related pairs.flip _ listed
    obtain ⟨field, present, shown, found, rfl⟩ := (mem_lineValues shows).mp inside
    rw [fieldValue_named valid held present] at made
    obtain ⟨fragment, compiled, rfl⟩ := map_eq_ok made
    exact ⟨field, present, shown, fragment, found, compiled, rfl⟩
  · rintro ⟨field, present, shown, fragment, found, compiled, rfl⟩
    obtain ⟨other, listed, made⟩ := exists_related pairs (field.name, shown.canonical)
      ((mem_lineValues shows).mpr ⟨field, present, shown, found, rfl⟩)
    rw [fieldValue_named valid held present, compiled] at made
    cases made
    exact listed

omit held in
theorem stored_fragment {field : FieldLayout} (listed : field ∈ layout.fields) {shown : Json}
    {fragment : DMLStatement} (compiled : fieldValue field shown = .ok fragment) :
    storedColumn session geography layout field.column.text fragment =
      restored session geography field shown := by
  rw [storedColumn, column_found valid listed, restored, compiled]
  rfl

/-- The server accepts the values of a line when it restores each to something. -/
theorem fields_accepted_iff (shows : shownValues session geography layout row = some values) :
    (∃ fields, fieldValues layout (lineValues values) = .ok fields ∧ ∀ entry ∈ fields,
        (storedColumn session geography layout entry.1 entry.2).isSome = true) ↔
      ∀ field ∈ layout.fields, ∃ kept, Restored session geography row field kept := by
  constructor
  · rintro ⟨fields, fieldsOk, accepted⟩ field listed
    obtain ⟨shown, found, _⟩ := shown_of_mem shows listed
    have inside := (mem_lineValues shows).mpr ⟨field, listed, shown, found, rfl⟩
    obtain ⟨result, present, made⟩ := mapM_result fieldsOk inside
    rw [fieldValue_named valid held listed] at made
    obtain ⟨fragment, compiled, rfl⟩ := map_eq_ok made
    have stored := accepted _ present
    rw [stored_fragment valid listed compiled] at stored
    obtain ⟨kept, kept_eq⟩ := Option.isSome_iff_exists.mp stored
    exact ⟨kept, shown, found, kept_eq⟩
  · intro restores
    have compiles : ∀ field ∈ layout.fields, ∀ shown,
        returned session geography field (row.contents field.column.text) = some shown →
          ∃ fragment, fieldValue field shown.canonical = .ok fragment ∧
            (restored session geography field shown.canonical).isSome = true := by
      intro field listed shown found
      obtain ⟨kept, other, same, stored⟩ := restores field listed
      cases found.symm.trans same
      obtain ⟨fragment, compiled, _⟩ := Option.bind_eq_some_iff.mp stored
      exact ⟨fragment, ok_of_toOption compiled, by rw [stored]; rfl⟩
    have each : ∀ entry ∈ lineValues values, ∃ result, (do
        let field ← namedField layout entry.1
        let value ← fieldValue field entry.2
        .ok (field.column.text, value) : Compiled (String × DMLStatement)) = .ok result := by
      intro entry inside
      obtain ⟨field, listed, shown, found, rfl⟩ := (mem_lineValues shows).mp inside
      obtain ⟨fragment, compiled, _⟩ := compiles field listed shown found
      rw [fieldValue_named valid held listed, compiled]
      exact ⟨_, rfl⟩
    obtain ⟨fields, fieldsOk⟩ := mapM_exists each
    refine ⟨fields, fieldsOk, ?_⟩
    intro entry present
    obtain ⟨field, listed, shown, fragment, found, compiled, rfl⟩ :=
      (mem_fieldValues valid held shows fieldsOk).mp present
    obtain ⟨_, _, stored⟩ := compiles field listed shown found
    rwa [stored_fragment valid listed compiled]

theorem keyColumns_found : compiler.keyColumns layout =
    .ok (primaryKey compiler.settings layout) := by
  have each : ∀ name ∈ layout.identity, ∃ field, namedField layout name = .ok field := by
    intro name listed
    obtain ⟨field, inside, rfl⟩ := identity_field valid held listed
    exact ⟨field, namedField_ok (field_of_mem valid held inside)⟩
  obtain ⟨fields, fieldsOk⟩ := mapM_exists each
  have keys : compiler.keyColumns layout = .ok (compiler.settings.scopeColumns ++
      fields.map fun field => field.column.text) := by
    rw [DMLCompiler.keyColumns, fieldsOk]
    rfl
  rw [keys, ← keyColumns_eq keys]

theorem keptColumn_found : ∃ first, DMLCompiler.keptColumn layout = .ok first := by
  unfold DMLCompiler.keptColumn
  split
  · rename_i name _ _ identity
    have listed : name ∈ layout.identity := identity ▸ List.mem_cons_self
    obtain ⟨field, inside, rfl⟩ := identity_field valid held listed
    rw [namedField_ok (field_of_mem valid held inside)]
    exact ⟨_, rfl⟩
  · rename_i identity
    obtain ⟨registry, _⟩ | ⟨_, sound⟩ := checked_of_check valid
    · rw [held] at registry
      cases registry
    · exact absurd identity sound.identity.1
  · exact ⟨_, rfl⟩

end Checked

theorem importedRecord_line {context : OperationContext} (valid : layout.check = .ok ())
    (held : layout.isRegistry = false)
    (named : compiler.settings.layout layout.ref.canonical = some layout)
    (scopeOk : compiler.scopeValues context = .ok scope)
    (shows : shownValues session geography layout row = some values) {line : Json}
    (written : exportLine session geography layout row = some line)
    {item : ResourceLayout × StoredRow} :
    importedRecord compiler session geography engine scope line = some item ↔
      compiler.validateRelationValues layout (lineValues values) = .ok () ∧
        (∀ field ∈ layout.fields, ∃ kept, Restored session geography row field kept) ∧
        item = (layout, copied session geography engine layout scope values) := by
  have inserted := @inserted_eq compiler layout context scope (Option StoredValue)
    (storingEngine session geography engine layout) valid held scopeOk (lineValues values)
  rw [← fields_accepted_iff valid held shows, importedRecord,
    importTarget_line held named shows written]
  constructor
  · intro made
    cases compiled : compiler.importMutation layout scope (lineValues values) with
    | error error =>
        rw [compiled] at made
        cases made
    | ok mutation =>
        obtain ⟨fields, first, checked, fieldsOk, rfl⟩ := importMutation_ok compiled
        simp only [compiled, Except.map, Except.toOption, Option.bind_eq_bind,
          Option.bind_some, accepted_iff valid scopeOk, inserted fieldsOk] at made
        split at made
        · rename_i accepted
          cases made
          exact ⟨checked, ⟨fields, fieldsOk, accepted⟩, rfl⟩
        · cases made
  · rintro ⟨checked, ⟨fields, fieldsOk, accepted⟩, rfl⟩
    obtain ⟨first, kept⟩ := keptColumn_found valid held
    have compiled : compiler.importMutation layout scope (lineValues values) = .ok
        (.importRow (compiler.settings.scopeColumns ++ fields.map Prod.fst)
          (DMLCompiler.scopeParameters scope ++ fields.map Prod.snd)
          (primaryKey compiler.settings layout) (DMLCompiler.mutableColumns layout) first) := by
      rw [DMLCompiler.importMutation, checked, fieldsOk, keyColumns_found valid held, kept]
      rfl
    simp only [compiled, Except.map, Except.toOption, Option.bind_eq_bind, Option.bind_some,
      accepted_iff valid scopeOk, inserted fieldsOk]
    rw [if_pos accepted]
    rfl

/-! ## Copies -/

/-- A record that holds the values of a row, as the server compares them, in a
scope. Its version is the first. -/
structure Copies (layout : ResourceLayout) (scope : List (String × String))
    (copy row : StoredRow) : Prop where
  fields : ∀ field ∈ layout.fields, copy.contents field.column.text =
    (row.contents field.column.text).map StoredValue.normal
  owned : InScope scope copy
  version : copy.version = 1

/-- The values of a row can be written back, and its endpoints are in their
collections. -/
structure Transfers (compiler : DMLCompiler) (session : Session) (geography : Geography)
    (layout : ResourceLayout) (row : StoredRow) : Prop where
  restores : ∀ field ∈ layout.fields,
    Restores session geography field (row.contents field.column.text)
  endpoints : ∀ values, shownValues session geography layout row = some values →
    compiler.validateRelationValues layout (lineValues values) = .ok ()

section Copied

variable {context : OperationContext} (valid : layout.check = .ok ())
  (held : layout.isRegistry = false) (scopeOk : compiler.scopeValues context = .ok scope)
  (shows : shownValues session geography layout row = some values)

include valid held scopeOk shows

theorem copied_field {field : FieldLayout} (listed : field ∈ layout.fields)
    {kept : Option StoredValue} (restores : Restored session geography row field kept) :
    (copied session geography engine layout scope values).contents field.column.text =
      kept.map StoredValue.normal := by
  have distinct : (Json.names values).Nodup :=
    names_shownValues shows ▸ fieldNames_nodup valid held
  obtain ⟨shown, found, inside⟩ := shown_of_mem shows listed
  obtain ⟨other, same, stored⟩ := restores
  cases found.symm.trans same
  obtain ⟨fragment, compiled, _⟩ := Option.bind_eq_some_iff.mp stored
  have read : storedColumn session geography layout field.column.text fragment = some kept :=
    (stored_fragment valid listed (ok_of_toOption compiled)).trans stored
  rw [copied, given_contents _ valid scopeOk listed, get_lineValues distinct,
    (Json.get_eq_some_iff distinct).mpr inside]
  simp [compiled, storingEngine, read]

omit shows in
omit held in
theorem copied_owned (distinct : compiler.settings.scopeKeys.Nodup) :
    InScope scope (copied session geography engine layout scope values) := by
  intro entry listed
  rw [copied, given_owner _ distinct scopeOk listed, storingEngine]
  simp only [storedColumn, scope_not_field valid scopeOk listed]
  rfl

/-- Every value is restored as it was when every column can be written back. -/
theorem copied_copies_iff (distinct : compiler.settings.scopeKeys.Nodup)
    (holds : ∀ field ∈ layout.fields, Holds field (row.contents field.column.text))
    (each : ∀ field ∈ layout.fields, ∃ kept, Restored session geography row field kept) :
    Copies layout scope (copied session geography engine layout scope values) row ↔
      ∀ field ∈ layout.fields,
        Restores session geography field (row.contents field.column.text) := by
  constructor
  · intro copies field listed
    obtain ⟨kept, restored⟩ := each field listed
    have alike := copies.fields field listed
    rw [copied_field valid held scopeOk shows listed restored] at alike
    obtain ⟨shown, found, stored⟩ := restored
    exact (restored_iff session geography (holds field listed) found).mp ⟨kept, stored, alike⟩
  · intro restores
    refine ⟨?_, copied_owned valid scopeOk distinct, rfl⟩
    intro field listed
    obtain ⟨shown, found, _⟩ := shown_of_mem shows listed
    obtain ⟨kept, stored, alike⟩ :=
      (restored_iff session geography (holds field listed) found).mpr (restores field listed)
    rw [copied_field valid held scopeOk shows listed ⟨shown, found, stored⟩]
    exact alike

/-- A line makes a copy of its row exactly when the row transfers. -/
theorem line_copies_iff (distinct : compiler.settings.scopeKeys.Nodup)
    (named : compiler.settings.layout layout.ref.canonical = some layout) {line : Json}
    (written : exportLine session geography layout row = some line)
    (holds : ∀ field ∈ layout.fields, Holds field (row.contents field.column.text)) :
    (∃ item, importedRecord compiler session geography engine scope line = some item ∧
        Copies layout scope item.2 row) ↔ Transfers compiler session geography layout row := by
  simp only [importedRecord_line valid held named scopeOk shows written]
  constructor
  · rintro ⟨_, ⟨checked, each, rfl⟩, copies⟩
    refine ⟨(copied_copies_iff valid held scopeOk shows distinct holds each).mp copies, ?_⟩
    intro other same
    cases shows.symm.trans same
    exact checked
  · intro transfers
    have each : ∀ field ∈ layout.fields, ∃ kept, Restored session geography row field kept := by
      intro field listed
      obtain ⟨shown, found, _⟩ := shown_of_mem shows listed
      obtain ⟨kept, stored, _⟩ := (restored_iff session geography (holds field listed) found).mpr
        (transfers.restores field listed)
      exact ⟨kept, shown, found, stored⟩
    exact ⟨_, ⟨transfers.endpoints values shows, each, rfl⟩,
      (copied_copies_iff valid held scopeOk shows distinct holds each).mpr transfers.restores⟩

end Copied

end Lines

end MeridianPostgreSQL.Migration
