import MeridianPostgreSQL.Query.Dml
import MeridianPostgreSQL.Query.PlanAlignment

/-! # Alignment of mutations

Every parameter of a mutation is the value of the part of its input that its
slot stands for. -/

namespace MeridianPostgreSQL.Query

open Settings

/-- What a mutation binds: its scope, the values of fields, the expression its
condition was parsed to, the version it expects and its limit. -/
structure Bindings where
  scope : List (String × String)
  values : Json.Object
  filter : Option Expression
  version : Option Json
  limit : Option Nat

/-- The value given for a field: null when there is none. -/
def Bindings.Gives (bindings : Bindings) (name : String) (value : Json) : Prop :=
  (name, value) ∈ bindings.values ∨ name ∉ Json.names bindings.values ∧ value = .null

inductive DMLSupplies (bindings : Bindings) : Origin → DriverValue → Prop
  | scope {tableAlias column value} (held : (column, value) ∈ bindings.scope) :
      DMLSupplies bindings (.scope tableAlias column) (.plain (.string value))
  | null {name} (given : bindings.Gives name .null) :
      DMLSupplies bindings (.value name) (.plain .null)
  | value {field value adapted} (given : bindings.Gives field.name value)
      (adapts : adaptDriverValue field value = .ok adapted) :
      DMLSupplies bindings (.value field.name) adapted
  | longitude {name value coordinates} (given : bindings.Gives name value)
      (read : wgs84Coordinates value name = .ok coordinates) :
      DMLSupplies bindings (.longitude name) (.plain (.float coordinates.1))
  | latitude {name value coordinates} (given : bindings.Gives name value)
      (read : wgs84Coordinates value name = .ok coordinates) :
      DMLSupplies bindings (.latitude name) (.plain (.float coordinates.2))
  | expression {path part root value} (given : bindings.filter = some root)
      (contributes : Contributes .condition [] root (.expression .condition path part) value) :
      DMLSupplies bindings (.expression .condition path part) (.plain value)
  | version {expected} (given : bindings.version = some expected) :
      DMLSupplies bindings .version (.plain expected)
  | limit {count : Nat} (given : bindings.limit = some count) :
      DMLSupplies bindings .limit (.plain (.int count))

section Parts

variable {bindings : Bindings}

/-! ## Values -/

theorem fieldValue_supplied {field : FieldLayout} {value : Json} {statement : DMLStatement}
    (given : bindings.Gives field.name value)
    (compiled : fieldValue field value = .ok statement) :
    Supplied (DMLSupplies bindings) statement := by
  have single : ∀ {adapted}, DMLSupplies bindings (.value field.name) adapted →
      Supplied (DMLSupplies bindings) (⟨[.slot (.value field.name)],
        [⟨.value field.name, adapted⟩]⟩ : DMLStatement) := fun supplies =>
    ⟨rfl, List.forall_mem_singleton.mpr supplies⟩
  unfold fieldValue at compiled
  split at compiled
  · rename_i absent
    split at compiled
    · cases compiled
      exact single (.null (absent ▸ given))
    · exact nomatch compiled
  · split at compiled
    · rename_i json
      cases compiled
      exact single (.value given (by rw [adaptDriverValue, if_pos json]))
    · split at compiled
      · rcases bind_eq_ok compiled with ⟨coordinates, read, compiled⟩
        cases compiled
        refine ⟨rfl, ?_⟩
        intro parameter listed
        rcases List.mem_pair.mp listed with rfl | rfl
        · exact .longitude given read
        · exact .latitude given read
      · rcases bind_eq_ok compiled with ⟨adapted, adapts, compiled⟩
        cases compiled
        exact single (.value given adapts)

theorem namedField_name {layout : ResourceLayout} {name : String} {field : FieldLayout}
    (found : namedField layout name = .ok field) : field.name = name := by
  unfold namedField at found
  split at found
  · rename_i listed
    cases found
    simpa using List.find?_some listed
  · cases found

theorem fieldValues_supplied {layout : ResourceLayout} {data : Json.Object}
    {values : List (String × DMLStatement)} (within : data ⊆ bindings.values)
    (compiled : fieldValues layout data = .ok values) :
    ∀ value ∈ values, Supplied (DMLSupplies bindings) value.2 := by
  apply forall_of_mapM (fun value : String × DMLStatement =>
    Supplied (DMLSupplies bindings) value.2) compiled
  intro entry value listed compiled
  rcases bind_eq_ok compiled with ⟨field, fieldOk, compiled⟩
  rcases bind_eq_ok compiled with ⟨statement, statementOk, compiled⟩
  cases compiled
  have given : bindings.Gives field.name entry.2 :=
    .inl (namedField_name fieldOk ▸ within listed)
  exact fieldValue_supplied given statementOk

theorem valueList_supplied {values : List DMLStatement}
    (each : ∀ value ∈ values, Supplied (DMLSupplies bindings) value) :
    Supplied (DMLSupplies bindings) (valueList values) :=
  ⟨by simpa [valueList] using slots_commands each, supplied_all each⟩

theorem assignment_supplied {column : String} {value : DMLStatement}
    (supplied : Supplied (DMLSupplies bindings) value) :
    Supplied (DMLSupplies bindings)
      ⟨[Piece.name column, .text " = "] ++ value.command, value.parameters⟩ :=
  ⟨by simp [supplied.aligned.slots_eq], supplied.values⟩

/-! ## Fixed parts -/

theorem slots_nameList (names : List String) : slots (nameList names) = [] := by
  simp [nameList, List.flatMap_map]

theorem slots_returning (layout : ResourceLayout) (tableAlias : String) :
    slots (DMLCompiler.returning layout tableAlias) = [] := by
  have supplied : Supplied (fun _ _ => False) (commaSeparated (recordColumns layout tableAlias)) :=
    commaSeparated_supplied (recordColumns_supplied layout tableAlias)
  have aligned := supplied.aligned.slots_eq
  rw [List.eq_nil_iff_forall_not_mem.mpr fun parameter member =>
    supplied.values parameter member] at aligned
  exact aligned

theorem slots_excludedFields (layout : ResourceLayout) :
    slots (DMLCompiler.excludedFields layout) = [] := by
  unfold DMLCompiler.excludedFields
  split <;> simp [List.flatMap_map]

end Parts

/-! ## Statements -/

namespace DMLCompiler

variable {compiler : DMLCompiler} {bindings : Bindings} {layout : ResourceLayout}
  {context : OperationContext}

theorem scopeParameters_supplied :
    ∀ value ∈ scopeParameters bindings.scope, Supplied (DMLSupplies bindings) value := by
  intro value listed
  rcases List.mem_map.mp listed with ⟨entry, held, rfl⟩
  exact ⟨rfl, List.forall_mem_singleton.mpr (.scope held)⟩

theorem scopeCondition_supplied (tableAlias : String) :
    Supplied (DMLSupplies bindings) (scopeCondition tableAlias bindings.scope) := by
  constructor
  · simp [scopeCondition, List.flatMap_map, Function.comp_def, ← List.map_eq_flatMap]
  · intro parameter member
    rcases List.mem_map.mp member with ⟨entry, held, rfl⟩
    exact .scope held

/-- A condition binds the scope and the expression its filter is parsed to. -/
theorem condition_supplied {filter : Json.Object} {tableAlias : String}
    {condition : DMLStatement} (inScope : compiler.scopeValues context = .ok bindings.scope)
    (parsed : compiler.parseFilter filter = .ok bindings.filter)
    (compiled : compiler.condition layout filter context tableAlias = .ok condition) :
    Supplied (DMLSupplies bindings) condition := by
  unfold DMLCompiler.condition at compiled
  rcases bind_eq_ok compiled with ⟨scope, scopeOk, compiled⟩
  rcases bind_eq_ok compiled with ⟨expression, expressionOk, compiled⟩
  cases inScope.symm.trans scopeOk
  cases parsed.symm.trans expressionOk
  split at compiled
  · cases compiled
    exact scopeCondition_supplied tableAlias
  · rename_i root given
    rcases bind_eq_ok compiled with ⟨statement, statementOk, compiled⟩
    cases compiled
    have carries := (compile_compiles [] root statement statementOk).carries
    have plain : Supplied (DMLSupplies bindings) (plainParameters statement) := by
      constructor
      · simpa [plainParameters, Function.comp_def] using carries.aligned.slots_eq
      · intro parameter member
        rcases List.mem_map.mp member with ⟨inner, held, rfl⟩
        have contributes := carries.values inner held
        rcases contributes with ⟨rest, part, deepest, value, same, reached, binds, encoded⟩
        rw [same]
        exact .expression given ⟨rest, part, deepest, value, rfl, reached, binds, encoded⟩
    exact .conjunction (.pair (scopeCondition_supplied tableAlias) plain)

theorem assignments_supplied {changes : Json.Object} {assigned : DMLStatement}
    (within : changes ⊆ bindings.values)
    (compiled : compiler.assignments layout changes = .ok assigned) :
    Supplied (DMLSupplies bindings) assigned := by
  unfold assignments at compiled
  dsimp only at compiled
  repeat' split at compiled
  all_goals try contradiction
  rcases bind_eq_ok compiled with ⟨_, _, compiled⟩
  rcases bind_eq_ok compiled with ⟨values, valuesOk, compiled⟩
  cases compiled
  apply valueList_supplied
  intro value listed
  rcases List.mem_map.mp listed with ⟨entry, held, rfl⟩
  exact assignment_supplied (fieldValues_supplied within valuesOk entry held)

theorem insertion_supplied {data : Json.Object} {values : List (String × DMLStatement)}
    (within : data ⊆ bindings.values) (compiled : fieldValues layout data = .ok values) :
    Supplied (DMLSupplies bindings) (compiler.insertion layout bindings.scope values) := by
  have each : ∀ value ∈ scopeParameters bindings.scope ++ values.map Prod.snd,
      Supplied (DMLSupplies bindings) value := by
    intro value listed
    rcases List.mem_append.mp listed with inside | inside
    · exact scopeParameters_supplied value inside
    · rcases List.mem_map.mp inside with ⟨entry, held, rfl⟩
      exact fieldValues_supplied within compiled entry held
  have selected := valueList_supplied each
  exact ⟨by simp [insertion, table, tableName, slots_nameList, selected.aligned.slots_eq],
    selected.values⟩

theorem versionCheck_supplied :
    Supplied (DMLSupplies bindings) (versionCheck bindings.version) := by
  cases given : bindings.version with
  | none => exact ⟨rfl, by simp [versionCheck]⟩
  | some version => exact ⟨rfl, List.forall_mem_singleton.mpr (.version given)⟩

theorem replacedFields_supplied {assigned : DMLStatement}
    (compiled : replacedFields layout bindings.values = .ok assigned) :
    Supplied (DMLSupplies bindings) assigned := by
  unfold replacedFields at compiled
  rcases bind_eq_ok compiled with ⟨values, valuesOk, compiled⟩
  have each : ∀ value ∈ values, Supplied (DMLSupplies bindings) value := by
    apply forall_of_mapM (Supplied (DMLSupplies bindings)) valuesOk
    intro field value listed compiled
    rcases bind_eq_ok compiled with ⟨statement, statementOk, compiled⟩
    cases compiled
    refine assignment_supplied (fieldValue_supplied ?_ statementOk)
    unfold Bindings.Gives
    cases found : Json.get bindings.values field.name with
    | none => exact .inr ⟨Json.not_mem_names found, rfl⟩
    | some value => exact .inl (Json.mem_of_get found)
  split at compiled
  · cases compiled
    exact ⟨rfl, by simp⟩
  · cases compiled
    have listed := valueList_supplied each
    exact ⟨by simp [listed.aligned.slots_eq], listed.values⟩

/-! ## Mutations -/

/-- What a mutation of these values under this filter binds. -/
def requestBindings (compiler : DMLCompiler) (context : OperationContext)
    (values filter : Json.Object) (version : Option Json) (limit : Option Nat) : Bindings where
  scope := (compiler.scopeValues context).toOption.getD []
  values := values
  filter := (compiler.parseFilter filter).toOption.join
  version := version
  limit := limit

/-- The statement binds the request's own scope, values, filter, version and
limit, each at its slots. -/
abbrev Binds (compiler : DMLCompiler) (context : OperationContext) (values filter : Json.Object)
    (version : Option Json) (limit : Option Nat) (statement : DMLStatement) : Prop :=
  Supplied (DMLSupplies (compiler.requestBindings context values filter version limit)) statement

section Mutations

variable {values filter data : Json.Object} {version : Option Json} {limit : Option Nat}
  {statement : DMLStatement}

theorem requestBindings_scope {scope : List (String × String)}
    (inScope : compiler.scopeValues context = .ok scope) :
    (compiler.requestBindings context values filter version limit).scope = scope := by
  simp [requestBindings, inScope, Except.toOption]

/-- A compiled condition had a scope and a parsed filter. -/
theorem condition_binds {tableAlias : String}
    (compiled : compiler.condition layout filter context tableAlias = .ok statement) :
    compiler.Binds context values filter version limit statement := by
  have steps := compiled
  unfold DMLCompiler.condition at steps
  rcases bind_eq_ok steps with ⟨scope, inScope, steps⟩
  rcases bind_eq_ok steps with ⟨expression, parsed, _⟩
  apply condition_supplied _ _ compiled
  · rw [requestBindings_scope inScope, inScope]
  · simp [requestBindings, parsed, Except.toOption]

theorem assignments_binds {changes : Json.Object} (within : changes ⊆ values)
    (compiled : compiler.assignments layout changes = .ok statement) :
    compiler.Binds context values filter version limit statement :=
  assignments_supplied within compiled

theorem versionCheck_binds : compiler.Binds context values filter version limit
    (versionCheck version) := by
  have checked : Supplied
      (DMLSupplies (compiler.requestBindings context values filter version limit))
      (versionCheck (compiler.requestBindings context values filter version limit).version) :=
    versionCheck_supplied
  exact checked

theorem insertion_binds {scope : List (String × String)}
    {fields : List (String × DMLStatement)}
    (inScope : compiler.scopeValues context = .ok scope)
    (compiled : fieldValues layout data = .ok fields) :
    compiler.Binds context data filter version limit
      (compiler.insertion layout scope fields) := by
  rw [← requestBindings_scope inScope]
  exact insertion_supplied (List.Subset.refl data) compiled

theorem identity_eq {identity : Json.Object}
    (compiled : (layout.identity.mapM fun name => do
      let value ← lookupKey data name
      .ok (name, value) : Compiled Json.Object) = .ok identity) :
    identity = identityValues layout data := by
  unfold identityValues
  generalize layout.identity = names at compiled
  induction names generalizing identity with
  | nil =>
      cases compiled
      rfl
  | cons name rest induction =>
      rw [List.mapM_cons] at compiled
      rcases bind_eq_ok compiled with ⟨first, firstOk, compiled⟩
      rcases bind_eq_ok compiled with ⟨others, othersOk, compiled⟩
      rcases bind_eq_ok firstOk with ⟨value, valueOk, firstOk⟩
      cases compiled
      cases firstOk
      have found : Json.get data name = some value := by
        unfold lookupKey at valueOk
        unfold Json.get
        split at valueOk
        · cases valueOk
          assumption
        · exact nomatch valueOk
      rw [List.filterMap_cons, found, induction othersOk]
      rfl

theorem conditionalPut_binds {expected : Json}
    (compiled : compiler.conditionalPut layout data expected context = .ok statement) :
    compiler.Binds context data (identityValues layout data) (some expected) limit
      statement := by
  unfold conditionalPut at compiled
  dsimp only at compiled
  split at compiled
  · exact nomatch compiled
  · rcases bind_eq_ok compiled with ⟨changes, changesOk, compiled⟩
    rcases bind_eq_ok compiled with ⟨condition, conditionOk, compiled⟩
    cases compiled
    have assigned : compiler.Binds context data (identityValues layout data) (some expected)
        limit changes := assignments_binds (List.filter_subset_self data) changesOk
    have restricted : compiler.Binds context data (identityValues layout data)
        (some expected) limit condition := condition_binds conditionOk
    have checked : compiler.Binds context data (identityValues layout data) (some expected)
        limit (versionCheck (some expected)) := versionCheck_binds
    constructor
    · simp [table, tableName, slots_returning, assigned.aligned.slots_eq,
        restricted.aligned.slots_eq, checked.aligned.slots_eq]
    · simp only [List.forall_mem_append]
      exact ⟨⟨assigned.values, restricted.values⟩, checked.values⟩

theorem updatePut_binds
    (compiled : compiler.updatePut layout data context = .ok statement) :
    compiler.Binds context data (identityValues layout data) version limit statement := by
  unfold updatePut at compiled
  rcases bind_eq_ok compiled with ⟨changes, changesOk, compiled⟩
  rcases bind_eq_ok compiled with ⟨identity, identityOk, compiled⟩
  rcases bind_eq_ok compiled with ⟨condition, conditionOk, compiled⟩
  cases compiled
  cases identity_eq identityOk
  have assigned : compiler.Binds context data (identityValues layout data) version limit
      changes := replacedFields_supplied changesOk
  have restricted : compiler.Binds context data (identityValues layout data) version limit
      condition := condition_binds conditionOk
  constructor
  · simp [table, tableName, slots_returning, assigned.aligned.slots_eq,
      restricted.aligned.slots_eq]
  · simp only [List.forall_mem_append]
    exact ⟨assigned.values, restricted.values⟩

theorem putStatement_binds {mode : PutMode} {expected : Option Json}
    (compiled : compiler.putStatement layout mode expected data context = .ok statement) :
    compiler.Binds context data (identityValues layout data) expected limit statement := by
  unfold putStatement at compiled
  rcases bind_eq_ok compiled with ⟨scope, inScope, compiled⟩
  rcases bind_eq_ok compiled with ⟨fields, fieldsOk, compiled⟩
  split at compiled
  · exact conditionalPut_binds compiled
  · rcases bind_eq_ok compiled with ⟨keys, _, compiled⟩
    dsimp only at compiled
    have inserted : compiler.Binds context data (identityValues layout data) none limit
        (compiler.insertion layout scope fields) := insertion_binds inScope fieldsOk
    split at compiled
    · exact updatePut_binds compiled
    · cases compiled
      exact ⟨by simp [upsertClause, slots_nameList, slots_excludedFields, slots_returning,
        inserted.aligned.slots_eq], inserted.values⟩
    · cases compiled
      exact ⟨by simp [slots_returning, inserted.aligned.slots_eq], inserted.values⟩

theorem append_binds {command : DMLCommand}
    (compiled : compiler.append layout (some (.object data)) context = .ok command) :
    compiler.Binds context data filter version limit command.statement := by
  unfold append at compiled
  rcases bind_eq_ok compiled with ⟨_, _, compiled⟩
  rcases bind_eq_ok compiled with ⟨scope, inScope, compiled⟩
  rcases bind_eq_ok compiled with ⟨fields, fieldsOk, compiled⟩
  cases compiled
  have inserted : compiler.Binds context data filter version limit
      (compiler.insertion layout scope fields) := insertion_binds inScope fieldsOk
  exact ⟨by simp [slots_returning, inserted.aligned.slots_eq], inserted.values⟩

theorem atomicClaim_binds {changes : Json.Object} {count : Nat} {command : DMLCommand}
    (compiled : compiler.atomicClaim layout filter changes count context = .ok command) :
    compiler.Binds context changes filter version (some count) command.statement := by
  unfold atomicClaim at compiled
  obtain ⟨_, compiled⟩ := check_eq_ok compiled
  obtain ⟨_, compiled⟩ := check_eq_ok compiled
  rcases bind_eq_ok compiled with ⟨condition, conditionOk, compiled⟩
  rcases bind_eq_ok compiled with ⟨assigned, assignedOk, compiled⟩
  rcases bind_eq_ok compiled with ⟨keys, _, compiled⟩
  cases compiled
  have restricted : compiler.Binds context changes filter version (some count) condition :=
    condition_binds conditionOk
  have changed : compiler.Binds context changes filter version (some count) assigned :=
    assignments_binds (List.Subset.refl changes) assignedOk
  constructor
  · simp [table, tableName, slots_nameList, slots_returning, restricted.aligned.slots_eq,
      changed.aligned.slots_eq, List.flatMap_map]
  · simp only [List.forall_mem_append, List.forall_mem_singleton]
    exact ⟨⟨restricted.values, .limit rfl⟩, changed.values⟩

end Mutations

/-! ## Requests -/

/-- The members of an input that is an object. -/
def members (input : Option Json) : Json.Object :=
  match input with
  | some (.object members) => members
  | _ => []

/-- The records of an append: a batch has one for each command. -/
def records (input : Json.Object) : List Json :=
  match appended input with
  | some (.array items) => items
  | data => data.toList

/-- The values that the command at an index writes. -/
def written (method : Method) (input : Json.Object) (index : Nat) : Json.Object :=
  match method with
  | .put => members (Json.get input "data")
  | .patch => members (Json.get input "changes")
  | .append => members (records input)[index]?
  | .get => []
  | .delete => []
  | .atomicClaim => []

/-- The filter of the rows a mutation addresses. -/
def addressed (method : Method) (layout : ResourceLayout) (input : Json.Object) : Json.Object :=
  match method with
  | .put => identityValues layout (members (Json.get input "data"))
  | .append => []
  | .atomicClaim => []
  | .get => members (Json.get input "where")
  | .patch => members (Json.get input "where")
  | .delete => members (Json.get input "where")

theorem put_binds {input : Json.Object} {command : DMLCommand}
    (compiled : compiler.put layout input context = .ok command) :
    compiler.Binds context (written .put input 0) (addressed .put layout input)
      (member input "expectedVersion") none command.statement := by
  unfold put at compiled
  rcases bind_eq_ok compiled with ⟨mode, _, compiled⟩
  rcases bind_eq_ok compiled with ⟨expected, expectedOk, compiled⟩
  split at compiled
  · rename_i data given
    rcases bind_eq_ok compiled with ⟨_, _, compiled⟩
    rcases bind_eq_ok compiled with ⟨_, _, compiled⟩
    rcases bind_eq_ok compiled with ⟨statement, statementOk, compiled⟩
    cases compiled
    have version : expected = member input "expectedVersion" := by
      unfold putVersion at expectedOk
      repeat' split at expectedOk
      all_goals try contradiction
      all_goals
        cases expectedOk
        simp_all
    rw [← version, written, addressed, given]
    exact putStatement_binds statementOk
  · exact nomatch compiled

theorem get_binds {input : Json.Object} {version : Option Json} {command : DMLCommand}
    (compiled : compiler.get layout input context = .ok command) :
    compiler.Binds context [] (addressed .get layout input) version none
      command.statement := by
  unfold get at compiled
  split at compiled
  · rename_i filter given
    rcases bind_eq_ok compiled with ⟨condition, conditionOk, compiled⟩
    cases compiled
    rw [addressed, given]
    have restricted : compiler.Binds context [] filter version none condition :=
      condition_binds conditionOk
    exact ⟨by simp [table, tableName, slots_returning, restricted.aligned.slots_eq],
      restricted.values⟩
  · cases compiled

theorem patch_binds {input : Json.Object} {command : DMLCommand}
    (compiled : compiler.patch layout input context = .ok command) :
    compiler.Binds context (written .patch input 0) (addressed .patch layout input)
      (member input "expectedVersion") none command.statement := by
  unfold patch at compiled
  split at compiled
  · rename_i filter changes given changesGiven
    rcases bind_eq_ok compiled with ⟨assigned, assignedOk, compiled⟩
    rcases bind_eq_ok compiled with ⟨condition, conditionOk, compiled⟩
    cases compiled
    rw [written, addressed, given, changesGiven]
    have changed : compiler.Binds context changes filter (member input "expectedVersion") none
        assigned := assignments_binds (List.Subset.refl changes) assignedOk
    have restricted : compiler.Binds context changes filter (member input "expectedVersion")
        none condition := condition_binds conditionOk
    have checked : compiler.Binds context changes filter (member input "expectedVersion") none
        (versionCheck (member input "expectedVersion")) := versionCheck_binds
    constructor
    · simp [table, tableName, slots_returning, changed.aligned.slots_eq,
        restricted.aligned.slots_eq, checked.aligned.slots_eq]
    · simp only [List.forall_mem_append]
      exact ⟨⟨changed.values, restricted.values⟩, checked.values⟩
  · cases compiled

theorem delete_binds {input : Json.Object} {command : DMLCommand}
    (compiled : compiler.delete layout input context = .ok command) :
    compiler.Binds context [] (addressed .delete layout input)
      (member input "expectedVersion") none command.statement := by
  unfold delete at compiled
  split at compiled
  · rename_i filter given
    rcases bind_eq_ok compiled with ⟨condition, conditionOk, compiled⟩
    cases compiled
    rw [addressed, given]
    have restricted : compiler.Binds context [] filter (member input "expectedVersion") none
        condition := condition_binds conditionOk
    have checked : compiler.Binds context [] filter (member input "expectedVersion") none
        (versionCheck (member input "expectedVersion")) := versionCheck_binds
    constructor
    · simp [table, tableName, slots_returning, restricted.aligned.slots_eq,
        checked.aligned.slots_eq]
    · simp only [List.forall_mem_append]
      exact ⟨restricted.values, checked.values⟩
  · cases compiled

theorem append_data {data : Option Json} {command : DMLCommand}
    (compiled : compiler.append layout data context = .ok command) :
    data = some (.object (members data)) := by
  unfold append at compiled
  split at compiled
  · rfl
  · exact nomatch compiled

theorem single_command {compiled : Compiled DMLCommand} {commands : List DMLCommand}
    (mapped : compiled.map (fun command => [command]) = .ok commands) {index : Nat}
    {command : DMLCommand} (held : commands[index]? = some command) :
    index = 0 ∧ compiled = .ok command := by
  rcases map_eq_ok mapped with ⟨only, compiledOk, rfl⟩
  cases index with
  | zero =>
      cases held
      exact ⟨rfl, compiledOk⟩
  | succ index => exact nomatch held

/-- Each command binds the values of its own record, under the filter and the
version of the request. -/
theorem compile_binds {method : Method} {canonical : String} {input : Json.Object}
    {commands : List DMLCommand}
    (compiled : compiler.compile method canonical input context = .ok commands) :
    ∃ layout, compiler.settings.layout canonical = some layout ∧
      ∀ {index command}, commands[index]? = some command →
        compiler.Binds context (written method input index) (addressed method layout input)
          (member input "expectedVersion") none command.statement := by
  unfold compile at compiled
  split at compiled
  · cases compiled
  · split at compiled
    · cases compiled
    · rename_i layout found
      refine ⟨layout, found, ?_⟩
      cases method with
      | put =>
          intro index command held
          rcases single_command compiled held with ⟨rfl, compiledOk⟩
          exact put_binds compiledOk
      | get =>
          intro index command held
          rcases single_command compiled held with ⟨rfl, compiledOk⟩
          exact get_binds compiledOk
      | patch =>
          intro index command held
          rcases single_command compiled held with ⟨rfl, compiledOk⟩
          exact patch_binds compiledOk
      | delete =>
          intro index command held
          rcases single_command compiled held with ⟨rfl, compiledOk⟩
          exact delete_binds compiledOk
      | append =>
          dsimp only at compiled
          have binds : ∀ {data command}, compiler.append layout data context = .ok command →
              compiler.Binds context (members data) [] (member input "expectedVersion") none
                command.statement := by
            intro data command appendOk
            rw [append_data appendOk] at appendOk
            exact append_binds appendOk
          split at compiled
          · rename_i items given
            split at compiled
            · cases compiled
            · intro index command held
              have mapped := mapM_eq_ok compiled
              rcases List.getElem?_eq_some_iff.mp held with ⟨inside, rfl⟩
              have within : index < items.length := mapped.length_eq ▸ inside
              have item := mapped.get within inside
              have record : (records input)[index]? = some items[index] := by
                rw [records, given]
                exact List.getElem?_eq_getElem within
              rw [written, record]
              exact binds item
          · rename_i single
            intro index command held
            rcases single_command compiled held with ⟨rfl, appendOk⟩
            have given : appended input = some (.object (members (appended input))) :=
              append_data appendOk
            have record : (records input)[0]? = appended input := by
              unfold records
              split
              · rename_i items batch
                exact absurd batch (single items)
              · rw [given]
                rfl
            rw [written, record]
            exact binds appendOk
      | atomicClaim => cases compiled

end DMLCompiler

end MeridianPostgreSQL.Query
