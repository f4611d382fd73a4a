import MeridianPostgreSQL.Migration.Shapes
import MeridianPostgreSQL.Query.LostUpdates
import MeridianPostgreSQL.Query.Puts

/-! # Put modes

What a put is to do to the record of its key, in each of its modes, and when
the statements of the compiler do it. -/

namespace MeridianPostgreSQL.Query

open Settings
open VersionedRecords

/-! ## Specification -/

/-- A record that takes some columns from a given one. Only the version says
that it was changed. -/
def overwritten {Value : Type} (columns : List String) (given old : Record Value) :
    Record Value where
  contents := takenContents columns given old
  version := if columns = [] then old.version else old.version + 1

/-- Without a duplicate of an indexed value the change is made. -/
def concluded {Value : Type} (unique : Table Value → Bool) (after : Table Value)
    (record : Record Value) : PutOutcome Value :=
  if unique after then .returned (some record) after else .conflict

/-- A put of a given record, by its key. The creation time of a record is a
column that is never among the mutable ones. -/
def specifiedPut {Value : Type} [DecidableEq Value] (unique : Table Value → Bool)
    (mode : PutMode) (keys mutableColumns : List String) (given : Record Value)
    (table : Table Value) : PutOutcome Value :=
  match mode, recordAt keys table (recordKey keys given) with
  | .update, none => .conflict
  | _, none => concluded unique (table ++ [given]) given
  | .ifAbsent, some _ => .conflict
  | _, some old =>
      concluded unique (table.map fun record =>
          if recordKey keys record = recordKey keys given then
            overwritten mutableColumns given record
          else record)
        (overwritten mutableColumns given old)

theorem upserted_eq {Value : Type} (columns : List String) (given old : Record Value) :
    upserted columns given old = overwritten columns given old := by
  unfold upserted overwritten
  cases columns with
  | nil =>
      have kept : takenContents [] given old = old.contents := by
        funext column
        exact if_neg List.not_mem_nil
      simp [kept]
  | cons column rest => rfl

/-! ## The given record -/

/-- What is bound for a column of a mapping of fields. -/
def suppliedValue (layout : ResourceLayout) (data : Json.Object) (column : String) :
    Option DMLStatement := do
  let field ← layout.fields.find? fun field => field.column.text = column
  let value ← Json.get data field.name
  (fieldValue field value).toOption

def ownerParameter (entry : String × String) : DMLStatement :=
  ⟨[.slot (.scope "" entry.1)], [⟨.scope "" entry.1, .plain (.string entry.2)⟩]⟩

/-- The record of the values that are supplied, and null for the others. -/
def givenRecord {Value : Type} (engine : Engine Value) (layout : ResourceLayout)
    (scope : List (String × String)) (data : Json.Object) : Record Value where
  contents := fun column =>
    match scope.lookup column with
    | some text => engine.store column (ownerParameter (column, text))
    | none => ((suppliedValue layout data column).map (engine.store column)).getD engine.null
  version := 1

section Given

variable {layout : ResourceLayout} (valid : layout.check = .ok ())
  (held : layout.isRegistry = false)

theorem lookup_map_value {Result : Type} (entries : List (String × String))
    (f : String × String → Result) (key : String) :
    (entries.map fun entry => (entry.1, f entry)).lookup key =
      (entries.lookup key).map fun value => f (key, value) := by
  induction entries with
  | nil => rfl
  | cons entry rest induction =>
      rw [List.map_cons, List.lookup_cons, List.lookup_cons]
      by_cases same : key = entry.1
      · subst same
        simp
      · have different : (key == entry.1) = false := by simpa using same
        rw [different]
        exact induction

include valid held

theorem fieldNames_nodup : layout.fieldNames.Nodup := by
  rcases checked_of_check valid with ⟨registry, _⟩ | ⟨_, checked⟩
  · rw [held] at registry
    exact nomatch registry
  · exact checked.names

theorem field_of_mem {field : FieldLayout} (listed : field ∈ layout.fields) :
    layout.field field.name = some field := by
  cases found : layout.field field.name with
  | none =>
      have absent := List.find?_eq_none.mp found field listed
      simp at absent
  | some other =>
      obtain ⟨present, named⟩ := field_found found
      rw [List.inj_on_of_nodup_map (fieldNames_nodup valid held) present listed named]

omit held in
theorem column_found {field : FieldLayout} (listed : field ∈ layout.fields) :
    (layout.fields.find? fun other => other.column.text = field.column.text) = some field := by
  cases found : layout.fields.find? fun other => other.column.text = field.column.text with
  | none =>
      have absent := List.find?_eq_none.mp found field listed
      simp at absent
  | some other =>
      have same := List.find?_some found
      simp only [decide_eq_true_eq] at same
      rw [List.inj_on_of_nodup_map (columns_nodup valid) (List.mem_of_find?_eq_some found) listed
        (Identifier.ext same)]

/-- The values of a mapping are found under the columns of their fields. -/
theorem fieldValues_lookup {data : Json.Object} {values : List (String × DMLStatement)}
    (compiled : fieldValues layout data = .ok values) (column : String) :
    values.lookup column = suppliedValue layout data column := by
  unfold fieldValues at compiled
  induction data generalizing values with
  | nil =>
      rw [List.mapM_nil] at compiled
      cases compiled
      simp [suppliedValue, Json.get]
  | cons entry rest induction =>
      rw [List.mapM_cons] at compiled
      obtain ⟨first, firstOk, compiled⟩ := bind_eq_ok compiled
      obtain ⟨others, othersOk, compiled⟩ := bind_eq_ok compiled
      cases compiled
      obtain ⟨field, fieldOk, firstOk⟩ := bind_eq_ok firstOk
      obtain ⟨statement, statementOk, firstOk⟩ := bind_eq_ok firstOk
      cases firstOk
      obtain ⟨listed, named⟩ := field_found (namedField_found fieldOk)
      rw [List.lookup_cons]
      by_cases same : column = field.column.text
      · have present : Json.get (entry :: rest) field.name = some entry.2 := by
          rw [Json.get, List.lookup_cons, named]
          simp
        rw [same, suppliedValue, column_found valid listed]
        simp [present, statementOk, Except.toOption]
      · have different : (column == field.column.text) = false := by simpa using same
        rw [different]
        refine (induction othersOk).trans ?_
        unfold suppliedValue
        cases found : layout.fields.find? fun other => other.column.text = column with
        | none => rfl
        | some other =>
            have apart : other.name ≠ entry.1 := by
              intro equal
              have stored := List.find?_some found
              simp only [decide_eq_true_eq] at stored
              rw [List.inj_on_of_nodup_map (fieldNames_nodup valid held)
                (List.mem_of_find?_eq_some found) listed (equal.trans named.symm)] at stored
              exact same stored.symm
            have skipped : (other.name == entry.1) = false := by simpa using apart
            have later : Json.get (entry :: rest) other.name = Json.get rest other.name := by
              rw [Json.get, List.lookup_cons, skipped]
              rfl
            simp [later]

end Given

section Inserted

variable {compiler : DMLCompiler} {layout : ResourceLayout} {context : OperationContext}
  {scope : List (String × String)}

theorem scope_columns (scopeOk : compiler.scopeValues context = .ok scope) :
    scope.map Prod.fst = compiler.settings.scopeColumns := by
  unfold DMLCompiler.scopeValues at scopeOk
  dsimp only at scopeOk
  split at scopeOk
  · exact nomatch scopeOk
  · split at scopeOk
    · exact nomatch scopeOk
    · obtain ⟨values, valuesOk, scopeOk⟩ := bind_eq_ok scopeOk
      cases scopeOk
      have length := (mapM_eq_ok valuesOk).length_eq
      rw [List.map_cons, List.map_fst_zip (by simp [← length]), List.map_map]
      rfl

/-- The columns of an insertion beside their values. -/
theorem inserted_values (scopeOk : compiler.scopeValues context = .ok scope)
    (values : List (String × DMLStatement)) :
    (compiler.settings.scopeColumns ++ values.map Prod.fst).zip
        (DMLCompiler.scopeParameters scope ++ values.map Prod.snd) =
      (scope.map fun entry => (entry.1, ownerParameter entry)) ++ values := by
  have owned : compiler.settings.scopeColumns.zip (DMLCompiler.scopeParameters scope) =
      scope.map fun entry => (entry.1, ownerParameter entry) := by
    rw [← scope_columns scopeOk]
    exact List.zip_map' ..
  have pairs : values = (values.map Prod.fst).zip (values.map Prod.snd) :=
    List.zip_of_prod rfl rfl
  rw [List.zip_append, owned, ← pairs]
  rw [← scope_columns scopeOk, DMLCompiler.scopeParameters, List.length_map, List.length_map]

/-- The row that a put inserts is the given record. -/
theorem inserted_eq {Value : Type} (engine : Engine Value) (valid : layout.check = .ok ())
    (held : layout.isRegistry = false) (scopeOk : compiler.scopeValues context = .ok scope)
    {data : Json.Object} {values : List (String × DMLStatement)}
    (compiled : fieldValues layout data = .ok values) :
    insertedRecord engine (compiler.settings.scopeColumns ++ values.map Prod.fst)
        (DMLCompiler.scopeParameters scope ++ values.map Prod.snd) =
      givenRecord engine layout scope data := by
  unfold insertedRecord givenRecord
  congr 1
  funext column
  rw [inserted_values scopeOk, List.lookup_append, lookup_map_value,
    fieldValues_lookup valid held compiled]
  cases scope.lookup column with
  | some text => rfl
  | none =>
      rw [Option.map_none, Option.none_or]
      cases suppliedValue layout data column <;> rfl

end Inserted

/-! ## Laws of the server -/

def nullValue (origin : Origin) : DMLStatement := ⟨[.slot origin], [⟨origin, .plain .null⟩]⟩

/-- What PostgreSQL and its driver do with the values of a put. -/
structure PutServer.Lawful {Value : Type} (server : PutServer Value)
    (layout : ResourceLayout) : Prop where
  /-- A condition is refused with any of its values. -/
  refuses : ∀ tableAlias scope compared,
    server.refuses (identityCondition tableAlias scope compared) =
      compared.any fun equality => (server.read equality.column equality.value).isNone
  /-- Texts and identities are compared as they are stored. -/
  holds : ∀ tableAlias scope compared record,
    (∀ equality ∈ compared, equality.value ≠ .null) →
    (server.holds (identityCondition tableAlias scope compared) record = true ↔
      (∀ entry ∈ scope, record.contents entry.1 = server.store entry.1 (ownerParameter entry)) ∧
      ∀ equality ∈ compared,
        server.read equality.column equality.value = some (record.contents equality.column))
  /-- The driver has no form for a mapping. -/
  mappings : ∀ column members, server.read column (.object members) = none
  nulls : ∀ column origin, server.store column (nullValue origin) = server.null
  nullable : ∀ field ∈ layout.fields, field.nullable = true → ∀ origin,
    server.storable field.column.text (nullValue origin) = true
  /-- One row is not a duplicate. -/
  single : ∀ record, server.unique [record] = true

/-! ## Replaced records -/

section Replaced

variable {layout : ResourceLayout} {data : Json.Object}
  {assignments : List (String × DMLStatement)}

theorem replaced_lookup {fields : List FieldLayout}
    (compiled : fields.mapM (DMLCompiler.replacedValue data) = .ok assignments)
    (column : String) : assignments.lookup column =
      (fields.find? fun field => field.column.text = column).bind fun field =>
        (fieldValue field ((Json.get data field.name).getD .null)).toOption := by
  induction fields generalizing assignments with
  | nil =>
      rw [List.mapM_nil] at compiled
      cases compiled
      rfl
  | cons field rest induction =>
      rw [List.mapM_cons] at compiled
      obtain ⟨first, firstOk, compiled⟩ := bind_eq_ok compiled
      obtain ⟨others, othersOk, compiled⟩ := bind_eq_ok compiled
      cases compiled
      obtain ⟨statement, statementOk, firstOk⟩ := bind_eq_ok firstOk
      cases firstOk
      rw [List.lookup_cons, List.find?_cons]
      by_cases same : field.column.text = column
      · simp [same, statementOk, Except.toOption]
      · have different : (column == field.column.text) = false := by
          simpa using fun equal => same equal.symm
        rw [different, decide_eq_false same]
        exact induction othersOk

theorem mem_mutableFields {field : FieldLayout} :
    field ∈ DMLCompiler.mutableFields layout ↔
      field ∈ layout.fields ∧ field.mutable = true ∧ field.name ∉ layout.identity := by
  simp [DMLCompiler.mutableFields]

/-- An assigned value is one that is supplied, or null where that is allowed. -/
theorem replaced_statement {field : FieldLayout} {statement : DMLStatement}
    (statementOk : fieldValue field ((Json.get data field.name).getD .null) = .ok statement) :
    (∃ value, Json.get data field.name = some value ∧
      fieldValue field value = .ok statement) ∨
    Json.get data field.name = none ∧ field.nullable = true ∧
      statement = nullValue (.value field.name) := by
  cases found : Json.get data field.name with
  | some value =>
      rw [found] at statementOk
      exact .inl ⟨value, rfl, statementOk⟩
  | none =>
      rw [found] at statementOk
      simp only [Option.getD_none, fieldValue, if_true] at statementOk
      split at statementOk
      · cases statementOk
        exact .inr ⟨rfl, ‹_›, rfl⟩
      · exact nomatch statementOk

variable {Value : Type} {server : PutServer Value} {compiler : DMLCompiler}
  {context : OperationContext} {scope : List (String × String)}

theorem scope_lookup_none (scopeOk : compiler.scopeValues context = .ok scope)
    (valid : layout.check = .ok ()) {field : FieldLayout} (listed : field ∈ layout.fields) :
    scope.lookup field.column.text = none := by
  rw [List.lookup_eq_none_iff]
  intro entry inside
  have owned : entry.1 ∈ compiler.settings.scopeColumns :=
    scope_columns scopeOk ▸ List.mem_map_of_mem inside
  have different : field.column.text ≠ entry.1 := fun same =>
    column_not_scope valid listed compiler.settings (same ▸ owned)
  simpa using different

/-- What the given record holds in the column of a field. -/
theorem given_contents (engine : Engine Value) (valid : layout.check = .ok ())
    (scopeOk : compiler.scopeValues context = .ok scope) {field : FieldLayout}
    (listed : field ∈ layout.fields) :
    (givenRecord engine layout scope data).contents field.column.text =
      (((Json.get data field.name).bind fun value => (fieldValue field value).toOption).map
        (engine.store field.column.text)).getD engine.null := by
  simp only [givenRecord, scope_lookup_none scopeOk valid listed, suppliedValue,
    column_found valid listed]
  rfl

theorem assigned_given (laws : server.Lawful layout) (valid : layout.check = .ok ())
    (scopeOk : compiler.scopeValues context = .ok scope) {field : FieldLayout}
    (listed : field ∈ layout.fields) {statement : DMLStatement}
    (statementOk : fieldValue field ((Json.get data field.name).getD .null) = .ok statement) :
    server.store field.column.text statement =
      (givenRecord server.toEngine layout scope data).contents field.column.text := by
  rw [given_contents server.toEngine valid scopeOk listed]
  rcases replaced_statement statementOk with ⟨value, found, made⟩ | ⟨found, _, rfl⟩
  · simp [found, made, Except.toOption]
  · simp [found, laws.nulls]

/-- A put that replaces a record overwrites it with the given one. -/
theorem replaced_eq (laws : server.Lawful layout) (valid : layout.check = .ok ())
    (scopeOk : compiler.scopeValues context = .ok scope)
    (compiled : DMLCompiler.replacedValues layout data = .ok assignments)
    (record : Record Value) :
    replaced server.toEngine assignments record =
      overwritten (DMLCompiler.mutableColumns layout)
        (givenRecord server.toEngine layout scope data) record := by
  have values : (DMLCompiler.mutableFields layout).mapM (DMLCompiler.replacedValue data) =
      .ok assignments := compiled
  have contents : assignedContents server.toEngine assignments record =
      takenContents (DMLCompiler.mutableColumns layout)
        (givenRecord server.toEngine layout scope data) record := by
    funext column
    rw [assignedContents, replaced_lookup values]
    cases found : (DMLCompiler.mutableFields layout).find? fun field =>
        field.column.text = column with
    | none =>
        have absent : column ∉ DMLCompiler.mutableColumns layout := by
          intro inside
          obtain ⟨field, listed, same⟩ := List.mem_map.mp inside
          have missing := List.find?_eq_none.mp found field listed
          simp [same] at missing
        rw [takenContents, if_neg absent]
        rfl
    | some field =>
        have listed := List.mem_of_find?_eq_some found
        have same := List.find?_some found
        simp only [decide_eq_true_eq] at same
        subst same
        have taken : field.column.text ∈ DMLCompiler.mutableColumns layout :=
          List.mem_map_of_mem listed
        obtain ⟨result, _, made⟩ := mapM_result values listed
        obtain ⟨statement, statementOk, _⟩ := bind_eq_ok made
        rw [takenContents, if_pos taken, ← assigned_given laws valid scopeOk
          (mem_mutableFields.mp listed).1 statementOk, Option.bind_some, statementOk]
        rfl
  have length := (mapM_eq_ok values).length_eq
  unfold replaced
  cases assignments with
  | nil =>
      have none : DMLCompiler.mutableColumns layout = [] :=
        List.map_eq_nil_iff.mpr (List.length_eq_zero_iff.mp length)
      rw [none, ← upserted_eq]
      rfl
  | cons first rest =>
      have some : DMLCompiler.mutableColumns layout ≠ [] := by
        intro empty
        rw [List.map_eq_nil_iff.mp empty] at length
        cases length
      rw [List.isEmpty_cons, if_neg Bool.false_ne_true, advanced, overwritten, contents, if_neg some]

end Replaced

/-! ## Submissions -/

/-- A put that the compiler and the server accept. -/
structure Submission {Value : Type} (server : PutServer Value) (compiler : DMLCompiler)
    (layout : ResourceLayout) (context : OperationContext) (input : Json.Object)
    (mode : PutMode) (expected : Option Json) (data : Json.Object)
    (scope : List (String × String)) (values : List (String × DMLStatement)) : Prop where
  modeOk : DMLCompiler.putMode input = .ok mode
  versionOk : DMLCompiler.putVersion mode input = .ok expected
  dataOk : Json.get input "data" = some (.object data)
  checked : DMLCompiler.checkFields "put" layout data = .ok ()
  relations : compiler.validateRelationValues layout data = .ok ()
  scopeOk : compiler.scopeValues context = .ok scope
  valuesOk : fieldValues layout data = .ok values
  stored : server.stores ((compiler.settings.scopeColumns ++ values.map Prod.fst).zip
    (DMLCompiler.scopeParameters scope ++ values.map Prod.snd)) = true
  scalar : ∀ name ∈ layout.identity, ∀ value, Json.get data name = some value →
    isScalar value = true

/-- Each identity value is bound as what its column stores of it. -/
def Located {Value : Type} (server : PutServer Value) (layout : ResourceLayout)
    (data : Json.Object) : Prop :=
  ∀ name ∈ layout.identity, ∀ field value statement, layout.field name = some field →
    Json.get data name = some value → fieldValue field value = .ok statement →
    field.isJson = false ∧ field.logicalType ≠ .bytes ∧
      server.read field.column.text value = some (server.store field.column.text statement)

section Accepted

variable {Value : Type} {server : PutServer Value} {compiler : DMLCompiler}
  {layout : ResourceLayout} {context : OperationContext} {input data : Json.Object}
  {mode : PutMode} {expected : Option Json} {scope : List (String × String)}
  {values : List (String × DMLStatement)}

theorem putMutation_eq
    (submitted : Submission server compiler layout context input mode expected data scope values) :
    compiler.putMutation layout context input =
      compiler.recordMutation layout context mode expected data := by
  simp [DMLCompiler.putMutation, submitted.modeOk, submitted.versionOk, submitted.dataOk,
    submitted.checked, submitted.relations, bind, Except.bind]

theorem checkFields_required {operation : String}
    (checked : DMLCompiler.checkFields operation layout data = .ok ()) {field : FieldLayout}
    (listed : field ∈ layout.fields) (required : field.nullable = false) :
    ∃ value, Json.get data field.name = some value := by
  unfold DMLCompiler.checkFields at checked
  dsimp only at checked
  split at checked
  · exact nomatch checked
  · rename_i accepted
    cases found : Json.get data field.name with
    | some value => exact ⟨value, rfl⟩
    | none =>
        exfalso
        apply accepted
        right
        apply List.ne_nil_of_mem (a := field.name)
        apply List.mem_filter.mpr
        refine ⟨List.mem_map_of_mem (List.mem_filter.mpr ⟨listed, by simp [required]⟩), ?_⟩
        simpa using Json.not_mem_names found

/-- The value of a field is among those that are compiled. -/
theorem supplied_statement (valuesOk : fieldValues layout data = .ok values)
    {field : FieldLayout} {value : Json} (found : layout.field field.name = some field)
    (given : Json.get data field.name = some value) :
    ∃ statement, fieldValue field value = .ok statement ∧
      (field.column.text, statement) ∈ values := by
  obtain ⟨result, inside, made⟩ := mapM_result valuesOk (Json.mem_of_get given)
  obtain ⟨other, otherOk, made⟩ := bind_eq_ok made
  obtain ⟨statement, statementOk, made⟩ := bind_eq_ok made
  cases found.symm.trans (namedField_found otherOk)
  cases made
  exact ⟨statement, statementOk, inside⟩

/-- Every identity value is supplied, and it is compiled. -/
theorem identity_supplied (valid : layout.check = .ok ()) (held : layout.isRegistry = false)
    (checked : DMLCompiler.checkFields "put" layout data = .ok ())
    (valuesOk : fieldValues layout data = .ok values) {name : String}
    (listed : name ∈ layout.identity) :
    ∃ field value statement, layout.field name = some field ∧
      Json.get data name = some value ∧ value ≠ .null ∧
      fieldValue field value = .ok statement := by
  obtain ⟨registry, _⟩ | ⟨_, sound⟩ := checked_of_check valid
  · rw [held] at registry
    exact nomatch registry
  · obtain ⟨field, inside, rfl⟩ := List.mem_map.mp (sound.identity.2.2 listed)
    have found := field_of_mem valid held inside
    have required := (identity_fields valid held listed found).1
    obtain ⟨value, given⟩ := checkFields_required checked inside required
    obtain ⟨statement, statementOk, _⟩ := supplied_statement valuesOk found given
    refine ⟨field, value, statement, found, given, ?_, statementOk⟩
    rintro rfl
    simp [fieldValue, required] at statementOk

theorem namedField_ok {name : String} {field : FieldLayout}
    (found : layout.field name = some field) : namedField layout name = .ok field := by
  simp [namedField, found]

theorem keyColumns_ok (valid : layout.check = .ok ()) (held : layout.isRegistry = false)
    (checked : DMLCompiler.checkFields "put" layout data = .ok ())
    (valuesOk : fieldValues layout data = .ok values) :
    compiler.keyColumns layout = .ok (primaryKey compiler.settings layout) := by
  have each : ∀ name ∈ layout.identity, ∃ field, namedField layout name = .ok field := by
    intro name listed
    obtain ⟨field, _, _, found, _⟩ := identity_supplied valid held checked valuesOk listed
    exact ⟨field, namedField_ok found⟩
  obtain ⟨fields, fieldsOk⟩ := mapM_exists each
  have keys : compiler.keyColumns layout = .ok (compiler.settings.scopeColumns ++
      fields.map fun field => field.column.text) := by
    rw [DMLCompiler.keyColumns, fieldsOk]
    rfl
  rw [keys, ← keyColumns_eq keys]

theorem identityValues_ok {names : List String}
    (each : ∀ name ∈ names, ∃ value, Json.get data name = some value) :
    (names.mapM fun name => do
      let value ← lookupKey data name
      .ok (name, value) : Compiled Json.Object) =
      .ok (names.filterMap fun name => (Json.get data name).map fun value => (name, value)) := by
  induction names with
  | nil => rfl
  | cons name rest induction =>
      obtain ⟨value, found⟩ := each name List.mem_cons_self
      have looked : lookupKey data name = .ok value := by
        rw [lookupKey, show data.lookup name = some value from found]
      rw [List.mapM_cons, induction fun other listed => each other (List.mem_cons_of_mem name listed),
        looked, List.filterMap_cons, found]
      rfl

/-- An accepted value of a field can be encoded, and is not null then either. -/
theorem encoded_exists {field : FieldLayout} {value : Json} {statement : DMLStatement}
    (given : value ≠ .null) (statementOk : fieldValue field value = .ok statement) :
    ∃ encoded, encodeQueryValue field value = .ok encoded ∧ encoded ≠ .null := by
  unfold encodeQueryValue
  by_cases json : field.isJson = true
  · exact ⟨_, if_pos json, Json.noConfusion⟩
  · rw [if_neg json]
    by_cases bytes : field.logicalType = .bytes
    · have point : ¬ field.logicalType = .wgs84Point := by simp [bytes]
      rw [fieldValue, if_neg given, if_neg json, if_neg point] at statementOk
      obtain ⟨adapted, adaptedOk, _⟩ := bind_eq_ok statementOk
      rw [adaptDriverValue, if_neg json, if_pos bytes] at adaptedOk
      obtain ⟨decoded, decodedOk, _⟩ := map_eq_ok adaptedOk
      rw [if_pos bytes, decodedOk]
      exact ⟨_, rfl, Json.noConfusion⟩
    · exact ⟨value, if_neg bytes, given⟩

theorem encoded_read (laws : server.Lawful layout) {field : FieldLayout} {value encoded : Json}
    (encodes : encodeQueryValue field value = .ok encoded) {stored : Value} :
    server.read field.column.text encoded = some stored ↔
      field.isJson = false ∧ field.logicalType ≠ .bytes ∧
        server.read field.column.text value = some stored := by
  unfold encodeQueryValue at encodes
  split at encodes
  · rename_i json
    cases encodes
    simp [marker, laws.mappings, json]
  · split at encodes
    · rename_i bytes
      obtain ⟨_, _, rfl⟩ := map_eq_ok encodes
      simp [marker, laws.mappings, bytes]
    · rename_i plain bytes
      cases encodes
      simp [plain, bytes]

/-- What is compared for an entry of the identity, and when it can be read. -/
theorem identity_entry (laws : server.Lawful layout) (valid : layout.check = .ok ())
    (held : layout.isRegistry = false)
    (submitted : Submission server compiler layout context input mode expected data scope values)
    {entry : String × Json} (listed : entry ∈ DMLCompiler.identityValues layout data) :
    ∃ field statement encoded, layout.field entry.1 = some field ∧
      fieldValue field entry.2 = .ok statement ∧
      encodedEntry layout entry = .ok (field.column.text, encoded) ∧ encoded ≠ .null ∧
      (server.read field.column.text encoded =
          some ((givenRecord server.toEngine layout scope data).contents field.column.text) ↔
        field.isJson = false ∧ field.logicalType ≠ .bytes ∧
          server.read field.column.text entry.2 =
            some (server.store field.column.text statement)) := by
  obtain ⟨member, given⟩ := mem_identityValues.mp listed
  obtain ⟨field, value, statement, found, other, filled, statementOk⟩ :=
    identity_supplied valid held submitted.checked submitted.valuesOk member
  cases given.symm.trans other
  obtain ⟨encoded, encodes, present⟩ := encoded_exists filled statementOk
  have assigned := assigned_given laws valid submitted.scopeOk (field_found found).1
    (by rw [(field_found found).2, given]; exact statementOk)
  refine ⟨field, statement, encoded, found, statementOk, ?_, present, ?_⟩
  · rw [encodedEntry, namedField_ok found]
    simp only [bind, Except.bind, encodes]
  · rw [← assigned]
    exact encoded_read laws encodes

/-- The condition of an accepted put: the columns that it compares, and when
each value can be read. -/
theorem identity_compared (laws : server.Lawful layout)
    (reads : ReadsScalars layout compiler.parseFilter)
    (valid : layout.check = .ok ()) (held : layout.isRegistry = false)
    (submitted : Submission server compiler layout context input mode expected data scope values) :
    ∃ compared : List Equality,
      compiler.condition layout (DMLCompiler.identityValues layout data) context "t" =
        .ok (identityCondition "t" scope compared) ∧
      (∀ equality ∈ compared, equality.value ≠ .null) ∧
      (∀ column, column ∈ layout.identity.map (columnOf layout) ↔
        ∃ equality ∈ compared, equality.column = column) ∧
      (Located server layout data ↔ ∀ equality ∈ compared,
        server.read equality.column equality.value =
          some ((givenRecord server.toEngine layout scope data).contents equality.column)) := by
  have each := fun entry (listed : entry ∈ DMLCompiler.identityValues layout data) =>
    identity_entry laws valid held submitted listed
  have supplied := fun name (listed : name ∈ layout.identity) =>
    identity_supplied valid held submitted.checked submitted.valuesOk listed
  have encodes : ∀ entry ∈ DMLCompiler.identityValues layout data, ∃ encoded,
      encodedEntry layout entry = .ok encoded := by
    intro entry listed
    obtain ⟨_, _, _, _, _, ok, _⟩ := each entry listed
    exact ⟨_, ok⟩
  have nonempty : DMLCompiler.identityValues layout data ≠ [] := by
    obtain ⟨registry, _⟩ | ⟨_, sound⟩ := checked_of_check valid
    · rw [held] at registry
      exact nomatch registry
    · obtain ⟨name, listed⟩ := List.exists_mem_of_ne_nil _ sound.identity.1
      obtain ⟨_, value, _, _, given, _⟩ := supplied name listed
      exact List.ne_nil_of_mem (mem_identityValues.mpr (⟨listed, given⟩ : (name, value).1 ∈ _ ∧ _))
  have scalar : ∀ entry ∈ DMLCompiler.identityValues layout data,
      isScalar entry.2 = true ∧ entry.2 ≠ .null := by
    intro entry listed
    obtain ⟨member, given⟩ := mem_identityValues.mp listed
    obtain ⟨_, _, _, _, other, filled, _⟩ := supplied _ member
    cases given.symm.trans other
    exact ⟨submitted.scalar _ member _ given, filled⟩
  obtain ⟨arranged, compared, rearranged, encodedOk, compiled⟩ :=
    @condition_identity compiler layout context _ scope "t" reads nonempty scalar
      submitted.scopeOk encodes
  have origin : ∀ equality ∈ compared, ∃ entry ∈ DMLCompiler.identityValues layout data,
      encodedEntry layout entry = .ok equality.compared := by
    intro equality listed
    exact forall_of_mapM (fun pair => ∃ entry ∈ DMLCompiler.identityValues layout data,
      encodedEntry layout entry = .ok pair) encodedOk
      (fun member made => ⟨_, rearranged.subset member, made⟩) _ (List.mem_map_of_mem listed)
  have target : ∀ entry ∈ DMLCompiler.identityValues layout data, ∃ equality ∈ compared,
      encodedEntry layout entry = .ok equality.compared := by
    intro entry listed
    obtain ⟨pair, inside, made⟩ := mapM_result encodedOk (rearranged.symm.subset listed)
    obtain ⟨equality, member, rfl⟩ := List.mem_map.mp inside
    exact ⟨equality, member, made⟩
  refine ⟨compared, compiled, ?_, ?_, ?_⟩
  · rintro ⟨column, place, value⟩ listed
    obtain ⟨entry, member, made⟩ := origin _ listed
    obtain ⟨_, _, _, _, _, encodes, present, _⟩ := each entry member
    cases encodes.symm.trans made
    exact present
  · intro column
    constructor
    · intro listed
      obtain ⟨name, inside, rfl⟩ := List.mem_map.mp listed
      obtain ⟨field, value, _, found, given, _⟩ := supplied name inside
      have member : (name, value) ∈ DMLCompiler.identityValues layout data :=
        mem_identityValues.mpr ⟨inside, given⟩
      obtain ⟨⟨column, place, bound⟩, listed, made⟩ := target _ member
      obtain ⟨other, _, _, otherFound, _, encodes, _⟩ := each _ member
      cases encodes.symm.trans made
      exact ⟨_, listed, (columnOf_found otherFound).symm⟩
    · rintro ⟨⟨column, place, bound⟩, listed, rfl⟩
      obtain ⟨entry, member, made⟩ := origin _ listed
      obtain ⟨field, _, _, found, _, encodes, _⟩ := each entry member
      cases encodes.symm.trans made
      exact List.mem_map.mpr ⟨entry.1, (mem_identityValues.mp member).1, columnOf_found found⟩
  · constructor
    · rintro located ⟨column, place, bound⟩ listed
      obtain ⟨entry, member, made⟩ := origin _ listed
      obtain ⟨field, statement, _, found, statementOk, encodes, _, readable⟩ := each entry member
      obtain ⟨inside, given⟩ := mem_identityValues.mp member
      cases encodes.symm.trans made
      exact readable.mpr (located entry.1 inside field entry.2 statement found given statementOk)
    · intro read name listed field value statement found given statementOk
      have member : (name, value) ∈ DMLCompiler.identityValues layout data :=
        mem_identityValues.mpr ⟨listed, given⟩
      obtain ⟨⟨column, place, bound⟩, inside, made⟩ := target _ member
      obtain ⟨other, otherStatement, _, otherFound, otherOk, encodes, _, readable⟩ := each _ member
      cases found.symm.trans otherFound
      cases statementOk.symm.trans otherOk
      cases encodes.symm.trans made
      exact readable.mp (read _ inside)

theorem lookup_of_nodup {entries : List (String × String)}
    (distinct : (entries.map Prod.fst).Nodup) {entry : String × String} (listed : entry ∈ entries) :
    entries.lookup entry.1 = some entry.2 := by
  obtain ⟨before, after, rfl⟩ := List.append_of_mem listed
  rw [List.map_append, List.nodup_append] at distinct
  apply List.lookup_eq_some_iff.mpr
  refine ⟨before, after, rfl, ?_⟩
  intro other earlier
  have different := distinct.2.2 other.1 (List.mem_map_of_mem earlier) entry.1 (by simp)
  simpa using fun same : entry.1 = other.1 => different same.symm

/-- The given record is of the scope. -/
theorem given_owner (engine : Engine Value) (distinct : compiler.settings.scopeKeys.Nodup)
    (scopeOk : compiler.scopeValues context = .ok scope) {entry : String × String}
    (listed : entry ∈ scope) : (givenRecord engine layout scope data).contents entry.1 =
      engine.store entry.1 (ownerParameter entry) := by
  have unique : (scope.map Prod.fst).Nodup :=
    scope_columns scopeOk ▸ Migration.scopeColumns_nodup distinct
  simp only [givenRecord, lookup_of_nodup unique listed]

/-- Where the identity values can be read, the condition finds the record of
the key. -/
theorem identity_holds (laws : server.Lawful layout) (distinct : compiler.settings.scopeKeys.Nodup)
    (scopeOk : compiler.scopeValues context = .ok scope) {compared : List Equality}
    (present : ∀ equality ∈ compared, equality.value ≠ .null)
    (columns : ∀ column, column ∈ layout.identity.map (columnOf layout) ↔
      ∃ equality ∈ compared, equality.column = column)
    (readable : ∀ equality ∈ compared, server.read equality.column equality.value =
      some ((givenRecord server.toEngine layout scope data).contents equality.column))
    (record : Record Value) :
    server.holds (identityCondition "t" scope compared) record = true ↔
      recordKey (primaryKey compiler.settings layout) record =
        recordKey (primaryKey compiler.settings layout)
          (givenRecord server.toEngine layout scope data) := by
  have names := scope_columns scopeOk
  have owned := fun entry (listed : entry ∈ scope) =>
    @given_owner Value compiler layout context data scope server.toEngine distinct scopeOk entry
      listed
  rw [laws.holds _ _ _ _ present, recordKey, recordKey, List.map_inj_left]
  constructor
  · rintro ⟨owner, same⟩ column listed
    rcases List.mem_append.mp listed with inside | identity
    · rw [← names] at inside
      obtain ⟨entry, member, rfl⟩ := List.mem_map.mp inside
      rw [owner entry member, owned entry member]
    · obtain ⟨equality, member, rfl⟩ := (columns column).mp identity
      exact Option.some.inj ((same equality member).symm.trans (readable equality member))
  · intro equal
    constructor
    · intro entry member
      have inside : entry.1 ∈ compiler.settings.scopeColumns := names ▸ List.mem_map_of_mem member
      rw [equal entry.1 (List.mem_append_left _ inside), owned entry member]
    · intro equality member
      have inside := (columns equality.column).mpr ⟨equality, member, rfl⟩
      rw [readable equality member, equal equality.column (List.mem_append_right _ inside)]

end Accepted

/-! ## Runs of a put -/

section Puts

variable {Value : Type} [DecidableEq Value] {keys : List String} {table : Table Value}

/-- At most one row has a key. -/
theorem filter_key (keyed : Keyed keys table) (key : List Value) :
    table.filter (fun record => recordKey keys record = key) =
      (recordAt keys table key).toList := by
  induction table with
  | nil => rfl
  | cons record rest induction =>
      obtain ⟨unlisted, others⟩ := List.nodup_cons.mp keyed
      rw [List.filter_cons, recordAt, List.find?_cons]
      by_cases same : recordKey keys record = key
      · have none : rest.filter (fun other => recordKey keys other = key) = [] := by
          rw [List.filter_eq_nil_iff]
          intro other listed equal
          simp only [decide_eq_true_eq] at equal
          exact unlisted (List.mem_map.mpr ⟨other, listed, equal.trans same.symm⟩)
        simp [same, none]
      · simpa [same, recordAt] using induction others

variable {server : PutServer Value}

/-- A statement that changes the row of a key if the row allows it. -/
def changeRow (server : PutServer Value) (keys : List String) (key : List Value)
    (allowed : Record Value → Bool) (change : Record Value → Record Value)
    (table : Table Value) : Reply Value :=
  server.settle
    (table.map fun record =>
      if recordKey keys record = key ∧ allowed record = true then change record else record)
    ((table.filter fun record => recordKey keys record = key ∧ allowed record = true).map change)

omit [DecidableEq Value] in
theorem settle_outcome (after : Table Value) (record : Record Value) (conditional : Bool) :
    (server.settle after [record]).outcome conditional =
      concluded server.unique after record := by
  unfold PutServer.settle concluded
  split
  · simp [Reply.outcome]
  · rfl

/-- Without such a row the statement is a conflict, and with it the row is
changed alone. -/
theorem changeRow_outcome (keyed : Keyed keys table) (unique : server.unique table = true)
    (key : List Value) (allowed : Record Value → Bool)
    (change : Record Value → Record Value) :
    (changeRow server keys key allowed change table).outcome true =
      match (recordAt keys table key).filter allowed with
      | none => .conflict
      | some old => concluded server.unique
          (table.map fun record => if recordKey keys record = key then change record else record)
          (change old) := by
  have chosen : (table.filter fun record => recordKey keys record = key ∧ allowed record = true) =
      ((recordAt keys table key).filter allowed).toList := by
    have split : (table.filter fun record => recordKey keys record = key ∧ allowed record = true) =
        (table.filter fun record => recordKey keys record = key).filter allowed := by
      rw [List.filter_filter]
      apply List.filter_congr
      intro record _
      rw [Bool.decide_and, Bool.decide_eq_true, Bool.and_comm]
    rw [split, filter_key keyed, Option.toList_filter]
  have found : ∀ record ∈ table, recordKey keys record = key →
      recordAt keys table key = some record := by
    rintro record listed rfl
    exact recordAt_of_mem keyed listed
  unfold changeRow
  rw [chosen]
  cases met : (recordAt keys table key).filter allowed with
  | none =>
      have kept : (table.map fun record =>
          if recordKey keys record = key ∧ allowed record = true then change record else record) =
          table.map id := by
        apply List.map_congr_left
        intro record listed
        apply if_neg
        rintro ⟨same, may⟩
        rw [found record listed same, Option.filter_some, if_pos may] at met
        exact nomatch met
      rw [kept, List.map_id, PutServer.settle, if_pos unique]
      rfl
  | some old =>
      have changed : (table.map fun record =>
          if recordKey keys record = key ∧ allowed record = true then change record else record) =
          table.map fun record => if recordKey keys record = key then change record else record := by
        apply List.map_congr_left
        intro record listed
        by_cases same : recordKey keys record = key
        · rw [found record listed same] at met
          obtain ⟨equal, may⟩ := Option.filter_eq_some_iff.mp met
          cases equal
          simp [same, may]
        · simp [same]
      rw [changed]
      exact settle_outcome _ _ true

theorem insertRow_outcome (given : Record Value) (upsert : Option (List String × List String))
    (conditional : Bool) : (server.insertRow keys given upsert table).outcome conditional =
      match recordAt keys table (recordKey keys given), upsert with
      | none, _ => concluded server.unique (table ++ [given]) given
      | some _, none => .conflict
      | some old, some clause => concluded server.unique
          (table.map fun record =>
            if recordKey keys record = recordKey keys given then overwritten clause.2 given record
            else record)
          (overwritten clause.2 given old) := by
  unfold PutServer.insertRow
  cases recordAt keys table (recordKey keys given) with
  | none => exact settle_outcome _ _ conditional
  | some old =>
      cases upsert with
      | none => rfl
      | some clause =>
          simp only [upserted_eq]
          exact settle_outcome _ _ conditional

end Puts

/-- A put needs a record if it names a version or is an update. -/
theorem conditional_eq {input : Json.Object} {mode : PutMode} {expected : Option Json}
    (modeOk : DMLCompiler.putMode input = .ok mode)
    (versionOk : DMLCompiler.putVersion mode input = .ok expected) :
    isConditional input = (expected.isSome || decide (mode = .update)) := by
  have version := putVersion_member versionOk
  rw [isConditional, ← version]
  congr 1
  unfold DMLCompiler.putMode at modeOk
  dsimp only at modeOk
  split at modeOk
  · rename_i text given
    rw [given]
    split at modeOk
    · rename_i absent
      cases modeOk
      simp [absent]
    · split at modeOk
      · rename_i update
        cases modeOk
        simp [update]
      · rename_i other
        split at modeOk
        · cases modeOk
          simp [other]
        · exact nomatch modeOk
  · exact nomatch modeOk

section Modes

variable {Value : Type} [DecidableEq Value] {server : PutServer Value} {compiler : DMLCompiler}
  {layout : ResourceLayout} {context : OperationContext} {input data : Json.Object}
  {mode : PutMode} {scope : List (String × String)} {values : List (String × DMLStatement)}
  {table : Table Value} (laws : server.Lawful layout) (valid : layout.check = .ok ())
  (held : layout.isRegistry = false)

omit [DecidableEq Value] in
theorem isConditional_eq {expected : Option Json}
    (submitted : Submission server compiler layout context input mode expected data scope values) :
    isConditional input = (expected.isSome || decide (mode = .update)) :=
  conditional_eq submitted.modeOk submitted.versionOk

include valid held

/-- An insertion, in either of its modes, is as specified. -/
theorem insertRow_specified
    (submitted : Submission server compiler layout context input mode none data scope values)
    (inserts : mode ≠ .update) :
    runPut server compiler layout context input table =
      specifiedPut server.unique mode (primaryKey compiler.settings layout)
        (DMLCompiler.mutableColumns layout) (givenRecord server.toEngine layout scope data)
        table := by
  have conditional := isConditional_eq submitted
  have keys := @keyColumns_ok compiler layout data values valid held submitted.checked
    submitted.valuesOk
  have inserted := inserted_eq server.toEngine valid held submitted.scopeOk submitted.valuesOk
  unfold runPut
  rw [putMutation_eq submitted, conditional]
  cases mode with
  | update => exact absurd rfl inserts
  | ifAbsent =>
      simp only [DMLCompiler.recordMutation, submitted.scopeOk, submitted.valuesOk, keys, bind,
        Except.bind, DMLCompiler.insertMutation, PutServer.perform, submitted.stored]
      rw [if_neg (by simp), inserted, insertRow_outcome]
      unfold specifiedPut
      cases recordAt (primaryKey compiler.settings layout) table _ <;> rfl
  | upsert =>
      simp only [DMLCompiler.recordMutation, submitted.scopeOk, submitted.valuesOk, keys, bind,
        Except.bind, DMLCompiler.insertMutation, PutServer.perform, submitted.stored]
      rw [if_neg (by simp), inserted, insertRow_outcome]
      unfold specifiedPut
      cases recordAt (primaryKey compiler.settings layout) table _ <;> rfl

omit [DecidableEq Value] in
theorem replacedValues_ok
    (submitted : Submission server compiler layout context input mode none data scope values) :
    ∃ assignments, DMLCompiler.replacedValues layout data = .ok assignments := by
  apply mapM_exists
  intro field listed
  have inside := (mem_mutableFields.mp listed).1
  have compiled : ∃ statement,
      fieldValue field ((Json.get data field.name).getD .null) = .ok statement := by
    cases given : Json.get data field.name with
    | some value =>
        obtain ⟨statement, statementOk, _⟩ :=
          supplied_statement submitted.valuesOk (field_of_mem valid held inside) given
        exact ⟨statement, statementOk⟩
    | none =>
        cases nullable : field.nullable with
        | true => exact ⟨nullValue (.value field.name), by simp [fieldValue, nullable, nullValue]⟩
        | false =>
            obtain ⟨value, supplied⟩ := checkFields_required submitted.checked inside nullable
            rw [given] at supplied
            exact nomatch supplied
  obtain ⟨statement, statementOk⟩ := compiled
  exact ⟨_, by rw [statementOk]; rfl⟩

omit [DecidableEq Value] in
include laws in
/-- What an insertion can store a replacement can. -/
theorem replacedValues_stored
    (submitted : Submission server compiler layout context input mode none data scope values)
    {assignments : List (String × DMLStatement)}
    (compiled : DMLCompiler.replacedValues layout data = .ok assignments) :
    server.stores assignments = true := by
  have stored := submitted.stored
  rw [inserted_values submitted.scopeOk, PutServer.stores, List.all_append,
    Bool.and_eq_true, List.all_eq_true, List.all_eq_true] at stored
  rw [PutServer.stores, List.all_eq_true]
  apply forall_of_mapM (fun value : String × DMLStatement =>
    server.storable value.1 value.2 = true) compiled
  intro field result listed made
  obtain ⟨statement, statementOk, made⟩ := bind_eq_ok made
  cases made
  have inside := (mem_mutableFields.mp listed).1
  rcases replaced_statement statementOk with ⟨value, given, supplied⟩ | ⟨_, nullable, rfl⟩
  · obtain ⟨other, otherOk, member⟩ :=
      supplied_statement submitted.valuesOk (field_of_mem valid held inside) given
    cases supplied.symm.trans otherOk
    exact stored.2 _ member
  · exact laws.nullable field inside nullable _

/-- The statement of an update. -/
theorem update_runs
    (submitted : Submission server compiler layout context input .update none data scope values)
    {compared : List Equality}
    (condition : compiler.condition layout (DMLCompiler.identityValues layout data) context "t" =
      .ok (identityCondition "t" scope compared)) :
    ∃ assignments, DMLCompiler.replacedValues layout data = .ok assignments ∧
      runPut server compiler layout context input table =
        (server.perform (primaryKey compiler.settings layout)
          (.replace assignments (identityCondition "t" scope compared)) table).outcome true := by
  obtain ⟨assignments, assigned⟩ := replacedValues_ok valid held submitted
  have keys := @keyColumns_ok compiler layout data values valid held submitted.checked
    submitted.valuesOk
  have identity : (layout.identity.mapM fun name => do
      let value ← lookupKey data name
      .ok (name, value) : Compiled Json.Object) =
      .ok (DMLCompiler.identityValues layout data) := by
    apply identityValues_ok
    intro name listed
    obtain ⟨_, value, _, _, given, _⟩ :=
      identity_supplied valid held submitted.checked submitted.valuesOk listed
    exact ⟨value, given⟩
  have updated : compiler.updatePutMutation layout context data =
      .ok (.replace assignments (identityCondition "t" scope compared)) := by
    unfold DMLCompiler.updatePutMutation
    rw [assigned, identity]
    simp only [bind, Except.bind, condition]
  refine ⟨assignments, assigned, ?_⟩
  unfold runPut
  rw [putMutation_eq submitted, isConditional_eq submitted]
  simp only [DMLCompiler.recordMutation, submitted.scopeOk, submitted.valuesOk, keys, bind,
    Except.bind, updated]
  rfl

include laws in
/-- Where the identity can be read, an update is as specified. -/
theorem update_specified (distinct : compiler.settings.scopeKeys.Nodup)
    (reads : ReadsScalars layout compiler.parseFilter) (located : Located server layout data)
    (submitted : Submission server compiler layout context input .update none data scope values)
    (keyed : Keyed (primaryKey compiler.settings layout) table)
    (unique : server.unique table = true) :
    runPut server compiler layout context input table =
      specifiedPut server.unique .update (primaryKey compiler.settings layout)
        (DMLCompiler.mutableColumns layout) (givenRecord server.toEngine layout scope data)
        table := by
  obtain ⟨compared, condition, present, columns, readable⟩ :=
    identity_compared laws reads valid held submitted
  have read := readable.mp located
  obtain ⟨assignments, assigned, run⟩ := @update_runs _ _ server _ _ _ _ _ _ _ table valid held
    submitted compared condition
  have accepted : server.refuses (identityCondition "t" scope compared) = false := by
    rw [laws.refuses, List.any_eq_false]
    intro equality listed
    simp [read equality listed]
  have stored := replacedValues_stored laws valid held submitted assigned
  have finds := identity_holds laws distinct submitted.scopeOk present columns read
  have changes := replaced_eq laws valid submitted.scopeOk assigned
  have performed : server.perform (primaryKey compiler.settings layout)
      (.replace assignments (identityCondition "t" scope compared)) table =
      changeRow server (primaryKey compiler.settings layout)
        (recordKey (primaryKey compiler.settings layout)
          (givenRecord server.toEngine layout scope data)) (fun _ => true)
        (overwritten (DMLCompiler.mutableColumns layout)
          (givenRecord server.toEngine layout scope data)) table := by
    have chosen : server.holds (identityCondition "t" scope compared) = fun record =>
        decide (recordKey (primaryKey compiler.settings layout) record =
          recordKey (primaryKey compiler.settings layout)
            (givenRecord server.toEngine layout scope data) ∧ true = true) := by
      funext record
      rw [Bool.eq_iff_iff, finds record]
      simp
    have change : replaced server.toEngine assignments =
        overwritten (DMLCompiler.mutableColumns layout)
          (givenRecord server.toEngine layout scope data) := funext changes
    simp only [PutServer.perform, accepted, stored, changeRow, chosen, change]
    rw [if_neg (by simp)]
    simp only [decide_eq_true_eq]
  rw [run, performed, changeRow_outcome keyed unique]
  unfold specifiedPut
  cases recordAt (primaryKey compiler.settings layout) table _ <;> rfl

include laws in
/-- Where it cannot be read, an update does not return the record that an
insertion of the same values made. -/
theorem update_misses (reads : ReadsScalars layout compiler.parseFilter)
    (unlocated : ¬ Located server layout data)
    (submitted : Submission server compiler layout context input .update none data scope values)
    (record : Option (Record Value)) (after : Table Value) :
    runPut server compiler layout context input
        [givenRecord server.toEngine layout scope data] ≠ .returned record after := by
  obtain ⟨compared, condition, present, _, readable⟩ :=
    identity_compared laws reads valid held submitted
  obtain ⟨assignments, _, run⟩ := @update_runs _ _ server _ _ _ _ _ _ _
    [givenRecord server.toEngine layout scope data] valid held submitted compared condition
  have misses : server.holds (identityCondition "t" scope compared)
      (givenRecord server.toEngine layout scope data) = false := by
    rw [Bool.eq_false_iff]
    intro found
    exact unlocated (readable.mpr ((laws.holds _ _ _ _ present).mp found).2)
  rw [run]
  simp only [PutServer.perform, misses, List.map_cons, List.map_nil, List.filter_cons,
    List.filter_nil, PutServer.settle, laws.single]
  split
  · exact nofun
  · exact nofun

end Modes

/-- The creation time of a record is not overwritten. -/
theorem creation_kept {Value : Type} {layout : ResourceLayout} (valid : layout.check = .ok ())
    (given old : Record Value) :
    (overwritten (DMLCompiler.mutableColumns layout) given old).contents "__created_at" =
      old.contents "__created_at" := by
  apply if_neg
  intro inside
  obtain ⟨field, listed, same⟩ := List.mem_map.mp inside
  exact (column_not_owned valid (mem_mutableFields.mp listed).1).1 (by rw [same]; decide)

/-- A put without an expected version does what is specified, whatever the
table holds, unless it is an update that cannot read its own identity. -/
theorem put_modes_iff {Value : Type} [DecidableEq Value] {server : PutServer Value}
    {compiler : DMLCompiler} {layout : ResourceLayout} {context : OperationContext}
    {input data : Json.Object} {mode : PutMode} {scope : List (String × String)}
    {values : List (String × DMLStatement)} (settled : compiler.settings.check = .ok ())
    (listed : layout ∈ compiler.settings.resources) (held : layout.isRegistry = false)
    (laws : server.Lawful layout) (reads : ReadsScalars layout compiler.parseFilter)
    (submitted : Submission server compiler layout context input mode none data scope values) :
    (∀ table, Keyed (primaryKey compiler.settings layout) table → server.unique table = true →
      runPut server compiler layout context input table =
        specifiedPut server.unique mode (primaryKey compiler.settings layout)
          (DMLCompiler.mutableColumns layout) (givenRecord server.toEngine layout scope data)
          table) ↔
      (mode = .update → Located server layout data) := by
  have sound := settings_checked settled
  have valid := sound.layouts layout listed
  constructor
  · rintro specified rfl
    by_contra unlocated
    have outcome := specified [givenRecord server.toEngine layout scope data]
      (List.nodup_singleton _) (laws.single _)
    simp only [specifiedPut, recordAt, List.find?_cons, decide_true, concluded, List.map_cons,
      List.map_nil, laws.single, if_true] at outcome
    exact update_misses laws valid held reads unlocated submitted _ _ outcome
  · intro located table keyed unique
    by_cases updates : mode = .update
    · subst updates
      exact update_specified laws valid held sound.scopeKeys reads (located rfl) submitted keyed
        unique
    · exact insertRow_specified valid held submitted updates

/-! ## Examples -/

def namesOf (command : Sql Origin) : List String :=
  command.filterMap fun piece =>
    match piece with
    | .name name => some name
    | _ => none

/-- The columns of names that are all qualified. -/
def qualifiedColumns : List String → List String
  | _ :: column :: rest => column :: qualifiedColumns rest
  | _ => []

def scalarValue (value : Json) : Option Json := if isScalar value then some value else none

def boundScalar : DriverValue → Option Json
  | .plain value => scalarValue value
  | .jsonb value => some value
  | .bytes data => some (.array (data.map fun byte => .int byte))

/-- What a condition compares with what. -/
def comparedValues (condition : DMLStatement) : List (String × Option Json) :=
  (qualifiedColumns (namesOf condition.command)).zip
    (condition.parameters.map fun parameter => boundScalar parameter.value)

/-- A server that stores scalars as they are, and a text of bytes as the bytes. -/
def plainServer : PutServer Json where
  null := .null
  store := fun _ value =>
    match value.parameters with
    | [parameter] => (boundScalar parameter.value).getD .null
    | _ => .null
  holds := fun condition record => (comparedValues condition).all fun compared =>
    compared.2 = some (record.contents compared.1)
  versionIs := fun expected version => expected = .int version
  read := fun _ value => scalarValue value
  storable := fun _ _ => true
  refuses := fun condition => (comparedValues condition).any fun compared => compared.2.isNone
  readsVersion := fun _ => true
  unique := fun _ => true

theorem namesOf_append (left right : Sql Origin) :
    namesOf (left ++ right) = namesOf left ++ namesOf right := List.filterMap_append

theorem filterMap_joined {β : Type} {read : Piece Origin → Option β} {separator : String}
    (silent : read (.text separator) = none) (parts : List (Sql Origin)) :
    (joined separator parts).filterMap read = parts.flatMap (List.filterMap read) := by
  unfold joined
  induction parts with
  | nil => rfl
  | cons first rest induction =>
      cases rest with
      | nil => simp
      | cons second rest =>
          rw [List.intersperse_cons_cons, List.flatten_cons, List.flatten_cons,
            List.filterMap_append, List.filterMap_append, induction, List.flatMap_cons,
            List.filterMap_cons_none silent]
          rfl

theorem namesOf_joined (separator : String) (parts : List (Sql Origin)) :
    namesOf (joined separator parts) = parts.flatMap namesOf := filterMap_joined rfl parts

theorem qualifiedColumns_flatMap (tableAlias : String) (columns : List String) :
    qualifiedColumns (columns.flatMap fun column => [tableAlias, column]) = columns := by
  induction columns with
  | nil => rfl
  | cons column rest induction =>
      rw [List.flatMap_cons]
      exact congrArg (column :: ·) induction

theorem namesOf_equalities (tableAlias : String) (compared : List Equality) :
    namesOf (equalities tableAlias compared).command =
      (compared.map Equality.column).flatMap fun column => [tableAlias, column] := by
  unfold equalities
  split
  · rfl
  · cases compared with
    | nil => rfl
    | cons first rest =>
        simp only [conjunction, List.map_cons, namesOf_append, namesOf_joined, List.flatMap_cons,
          List.map_map, List.flatMap_map]
        exact List.append_nil _

theorem parameters_equalities (tableAlias : String) (compared : List Equality) :
    (equalities tableAlias compared).parameters = compared.map fun equality =>
      ⟨equality.origin, .plain equality.value⟩ := by
  unfold equalities
  split
  · rfl
  · cases compared with
    | nil => rfl
    | cons first rest =>
        simp only [conjunction, allParameters, List.map_cons, List.flatMap_cons, List.flatMap_map]
        rw [List.map_eq_flatMap]
        rfl

theorem comparedValues_identity (tableAlias : String) (scope : List (String × String))
    (compared : List Equality) :
    comparedValues (identityCondition tableAlias scope compared) =
      (scope.map fun entry => (entry.1, some (.string entry.2))) ++
        compared.map fun equality => (equality.column, scalarValue equality.value) := by
  have names : namesOf (identityCondition tableAlias scope compared).command =
      (scope.map Prod.fst ++ compared.map Equality.column).flatMap fun column =>
        [tableAlias, column] := by
    simp only [identityCondition, conjunction, List.map_cons, List.map_nil, namesOf_append,
      namesOf_joined, List.flatMap_cons, List.flatMap_nil, DMLCompiler.scopeCondition,
      namesOf_equalities, List.flatMap_append, List.flatMap_map]
    simp [namesOf, ident]
  have parameters : (identityCondition tableAlias scope compared).parameters.map
      (fun parameter => boundScalar parameter.value) =
      (scope.map fun entry => some (.string entry.2)) ++
        compared.map fun equality => scalarValue equality.value := by
    simp [identityCondition, conjunction, allParameters, DMLCompiler.scopeCondition,
      parameters_equalities, boundScalar, scalarValue, isScalar, Function.comp_def]
  rw [comparedValues, names, parameters, qualifiedColumns_flatMap,
    List.zip_append (by simp), List.zip_map', List.zip_map']

theorem plainServer_lawful (layout : ResourceLayout) : plainServer.Lawful layout where
  refuses := by
    intro tableAlias scope compared
    have owned : (scope.map fun entry : String × String =>
        (entry.1, some (Json.string entry.2))).any (fun compared => compared.2.isNone) = false := by
      simp
    simp only [plainServer, comparedValues_identity, List.any_append, owned, List.any_map]
    rfl
  holds := by
    intro tableAlias scope compared record _
    simp only [plainServer, comparedValues_identity, List.all_append, Bool.and_eq_true,
      List.all_map, List.all_eq_true, Function.comp_def, decide_eq_true_eq]
    apply and_congr_left
    intro _
    apply forall₂_congr
    intro entry _
    rw [Option.some.injEq, eq_comm]
    rfl
  mappings := fun _ _ => rfl
  nulls := fun _ _ => rfl
  nullable := fun _ _ _ _ => rfl
  single := fun _ => rfl

def workData (identity : Json) : Json.Object :=
  [("id", identity), ("state", .string "ready"), ("priority", .int 1)]

def workScope : List (String × String) := [("__tenant", "tenant"), ("__scope_workspace", "main")]

/-- The update of an item, accepted. -/
theorem workUpdate_submitted : ∃ values, fieldValues workLayout (workData (.string "x")) = .ok values ∧
    Submission plainServer workCompiler workLayout workOperation (workUpdate (.string "x")) .update
      none (workData (.string "x")) workScope values :=
  ⟨_, rfl, rfl, rfl, rfl, rfl, rfl, rfl, rfl, rfl, by
    intro name listed value given
    cases List.mem_singleton.mp listed
    cases given
    rfl⟩

theorem workUpdate_located : Located plainServer workLayout (workData (.string "x")) := by
  intro name listed field value statement found given compiled
  cases List.mem_singleton.mp listed
  cases found
  cases given
  cases compiled
  exact ⟨rfl, nofun, rfl⟩

/-- The update of an item that is there is as specified. -/
theorem work_put_modes :
    runPut plainServer workCompiler workLayout workOperation (workUpdate (.string "x"))
        [workRecord "waiting" 3] =
      specifiedPut plainServer.unique .update (primaryKey workSettings workLayout)
        (DMLCompiler.mutableColumns workLayout)
        (givenRecord plainServer.toEngine workLayout workScope (workData (.string "x")))
        [workRecord "waiting" 3] := by
  obtain ⟨values, _, submitted⟩ := workUpdate_submitted
  have settled : workCompiler.settings.check = .ok () := by decide
  have listed : workLayout ∈ workCompiler.settings.resources := List.mem_singleton.mpr rfl
  exact (put_modes_iff settled listed rfl (plainServer_lawful workLayout)
    (dollarFilter_scalars workLayout) submitted).mpr (fun _ => workUpdate_located) _
      (workRecord_keyed "waiting" 3) rfl

/-- A layout whose records are found by bytes. -/
def blobLayout : ResourceLayout where
  ref := ⟨"structured", "example", "blob"⟩
  table := ⟨"blobs", by decide⟩
  profile := "key-value"
  schemaFingerprint := "blob-schema-v1"
  resourceFingerprint := "blob-resource-v1"
  fields := [
    ⟨"digest", ⟨"digest", by decide⟩, .bytes, false, false, .one, none, none⟩,
    ⟨"state", ⟨"state", isIdentifier_state⟩, .string, false, true, .one, none, none⟩]
  identity := ["digest"]
  indexes := []
  relation := none

def blobCompiler : DMLCompiler where
  settings := ⟨⟨"meridian_test", isIdentifier_meridianTest⟩,
    [⟨"workspace", isIdentifier_workspace⟩], [blobLayout], false⟩
  parseFilter := fun filter => .ok (some (dollarFilter filter))
  collectionRef := fun _ => .error (.type "a record reference is required")

def blobData : Json.Object := [("digest", .string "aGk"), ("state", .string "ready")]

def blobPut (mode : String) : Json.Object := [("mode", .string mode), ("data", .object blobData)]

/-- An insertion of a blob is made, and the update of it with the same data is
refused, which is to advance it. -/
theorem bytes_update_refused : blobCompiler.settings.check = .ok () ∧ ∃ record next,
    runPut plainServer blobCompiler blobLayout workOperation (blobPut "if_absent") [] =
      .returned (some record) [record] ∧
    runPut plainServer blobCompiler blobLayout workOperation (blobPut "update") [record] =
      .refused ∧
    specifiedPut plainServer.unique .update (primaryKey blobCompiler.settings blobLayout)
        (DMLCompiler.mutableColumns blobLayout)
        (givenRecord plainServer.toEngine blobLayout workScope blobData) [record] =
      .returned (some next) [next] ∧ next.version = 2 :=
  ⟨by decide, _, _, rfl, rfl, rfl, rfl⟩

end MeridianPostgreSQL.Query
