import MeridianPostgreSQL.Query.VersionedPuts

/-! # Addressed puts

Which records a put writes. An insertion writes the record of its key. An
update finds its record by a filter of the identity values, which reads an
object as comparisons. -/

namespace MeridianPostgreSQL.Query

open Settings
open VersionedRecords

/-! ## Conditions of comparisons -/

/-- A column, and the bound value that it is compared with. -/
structure ColumnComparison where
  column : String
  kind : BinaryKind
  origin : Origin
  value : Json

namespace ColumnComparison

def query (tableAlias : String) (comparison : ColumnComparison) : QueryStatement :=
  binaryStatement comparison.kind ⟨ident [tableAlias, comparison.column], []⟩
    ⟨[.slot comparison.origin], [⟨comparison.origin, comparison.value⟩]⟩

end ColumnComparison

/-- A statement that joins comparisons, in the order listed. -/
inductive Joins (tableAlias : String) : QueryStatement → List ColumnComparison → Prop
  | one (comparison : ColumnComparison) :
      Joins tableAlias (comparison.query tableAlias) [comparison]
  | all {parts : List (QueryStatement × List ColumnComparison)}
      (each : ∀ part ∈ parts, Joins tableAlias part.1 part.2) :
      Joins tableAlias (conjunction (parts.map Prod.fst)) (parts.flatMap Prod.snd)

def comparedCondition (tableAlias : String) (scope : List (String × String))
    (compared : QueryStatement) : DMLStatement :=
  conjunction [DMLCompiler.scopeCondition tableAlias scope, plainParameters compared]

/-- A comparison as it is bound for the column of its field. -/
def BoundFor (layout : ResourceLayout) (comparison : Comparison) (bound : ColumnComparison) :
    Prop :=
  ∃ field, layout.field comparison.field = some field ∧ bound.column = field.column.text ∧
    bound.kind = comparison.kind ∧ encodeQueryValue field comparison.value = .ok bound.value

section Conditions

variable {layout : ResourceLayout} {tableAlias : String}

theorem compile_comparison {site : Site} {path : List Nat} {comparison : Comparison}
    {statement : QueryStatement}
    (compiled : Query.compile (conditionTargets layout tableAlias) site path
      comparison.expression = .ok statement) :
    ∃ bound, BoundFor layout comparison bound ∧ statement = bound.query tableAlias := by
  change (Query.compile _ site (path ++ [0]) (.field none comparison.field) >>= _) = _ at compiled
  obtain ⟨left, leftOk, compiled⟩ := bind_eq_ok compiled
  change ((conditionTargets layout tableAlias).field none comparison.field >>= _) = _ at leftOk
  obtain ⟨found, foundOk, leftOk⟩ := bind_eq_ok leftOk
  cases leftOk
  obtain ⟨right, rightOk, compiled⟩ := bind_eq_ok compiled
  change Except.ok (literalStatement site (path ++ [1]) comparison.value) = _ at rightOk
  cases rightOk
  obtain ⟨sameAlias, present⟩ := conditionTargets_field foundOk
  obtain ⟨leftField, leftFieldOk, compiled⟩ := bind_eq_ok compiled
  rw [Targets.expressionField, foundOk] at leftFieldOk
  cases leftFieldOk
  obtain ⟨rightField, rightFieldOk, compiled⟩ := bind_eq_ok compiled
  cases rightFieldOk
  obtain ⟨adapted, adaptedOk, compiled⟩ := bind_eq_ok compiled
  cases compiled
  obtain ⟨parameters, parametersOk, adaptedOk⟩ := map_eq_ok adaptedOk
  cases adaptedOk
  rw [literalStatement, List.mapM_cons, List.mapM_nil] at parametersOk
  obtain ⟨parameter, parameterOk, parametersOk⟩ := bind_eq_ok parametersOk
  cases parametersOk
  obtain ⟨encoded, encodedOk, parameterOk⟩ := map_eq_ok parameterOk
  cases parameterOk
  refine ⟨⟨found.2.column.text, comparison.kind, .expression site (path ++ [1]) .literal, encoded⟩,
    ⟨found.2, present, rfl, rfl, encodedOk⟩, ?_⟩
  rw [ColumnComparison.query, ← sameAlias]
  rfl

theorem compileAll_joins {site : Site} {path : List Nat} {index : Nat}
    {parts : List (Expression × List Comparison)} {statements : List QueryStatement}
    (each : ∀ part ∈ parts, ∀ {path statement},
      Query.compile (conditionTargets layout tableAlias) site path part.1 = .ok statement →
        ∃ compared, List.Forall₂ (BoundFor layout) part.2 compared ∧
          Joins tableAlias statement compared)
    (compiled : compileAll (conditionTargets layout tableAlias) site path index
      (parts.map Prod.fst) = .ok statements) :
    ∃ joined : List (QueryStatement × List ColumnComparison),
      statements = joined.map Prod.fst ∧ (∀ part ∈ joined, Joins tableAlias part.1 part.2) ∧
        List.Forall₂ (BoundFor layout) (parts.flatMap Prod.snd) (joined.flatMap Prod.snd) := by
  induction parts generalizing index statements with
  | nil =>
      cases compiled
      exact ⟨[], rfl, nofun, .nil⟩
  | cons part rest induction =>
      change (Query.compile _ site (path ++ [index]) part.1 >>= _) = _ at compiled
      obtain ⟨first, firstOk, compiled⟩ := bind_eq_ok compiled
      obtain ⟨others, othersOk, compiled⟩ := bind_eq_ok compiled
      cases compiled
      obtain ⟨compared, bound, joins⟩ := each part List.mem_cons_self firstOk
      obtain ⟨joined, rfl, later, all⟩ := induction
        (fun other listed => each other (List.mem_cons_of_mem part listed)) othersOk
      refine ⟨(first, compared) :: joined, rfl, ?_, ?_⟩
      · intro other listed
        rcases List.mem_cons.mp listed with rfl | inside
        · exact joins
        · exact later other inside
      · rw [List.flatMap_cons, List.flatMap_cons]
        exact List.rel_append bound all

/-- Joined comparisons are compiled to joined comparisons of columns. -/
theorem Conjoins.compile {site : Site} {expression : Expression} {listed : List Comparison}
    (conjoins : Conjoins expression listed) {path : List Nat} {statement : QueryStatement}
    (compiled : Query.compile (conditionTargets layout tableAlias) site path expression =
      .ok statement) :
    ∃ compared, List.Forall₂ (BoundFor layout) listed compared ∧
      Joins tableAlias statement compared := by
  induction conjoins generalizing path statement with
  | one comparison =>
      obtain ⟨bound, boundFor, rfl⟩ := compile_comparison compiled
      exact ⟨[bound], .cons boundFor .nil, .one bound⟩
  | all _ _ induction =>
      change (compileAll _ site path 0 _ >>= _) = _ at compiled
      obtain ⟨statements, statementsOk, compiled⟩ := bind_eq_ok compiled
      cases compiled
      obtain ⟨joined, rfl, each, bound⟩ := compileAll_joins induction statementsOk
      exact ⟨_, bound, .all each⟩

/-- The condition of a filter in documented form. -/
theorem condition_compared {compiler : DMLCompiler} {reader : FilterReader}
    {context : OperationContext} {filter : Json.Object} {scope : List (String × String)}
    {condition : DMLStatement} (reads : ReadsFilters reader layout compiler.parseFilter)
    (documented : reader.Documented layout filter)
    (scopeOk : compiler.scopeValues context = .ok scope)
    (compiled : compiler.condition layout filter context tableAlias = .ok condition) :
    ∃ listed statement compared, listed.Perm (reader.comparisons filter) ∧
      List.Forall₂ (BoundFor layout) listed compared ∧ Joins tableAlias statement compared ∧
      condition = comparedCondition tableAlias scope statement := by
  obtain ⟨expression, listed, parsed, conjoins, rearranged, _⟩ := reads.reads documented
  obtain ⟨found, statement, foundOk, written, rfl⟩ := condition_compiled parsed compiled
  cases scopeOk.symm.trans foundOk
  obtain ⟨compared, bound, joins⟩ := conjoins.compile written
  exact ⟨listed, statement, compared, rearranged, bound, joins, rfl⟩

end Conditions

/-! ## Server -/

/-- A server that compares a column with a bound value, unless the driver or
the server refuses the value there. -/
structure ComparingServer (Value : Type) extends PutServer Value where
  compares : String → BinaryKind → Json → Option (Value → Bool)

/-- The comparison as it is bound for the column of a field holds of a value. -/
def ComparingServer.Passes {Value : Type} (server : ComparingServer Value) (field : FieldLayout)
    (comparison : Comparison) (stored : Value) : Prop :=
  ∃ encoded test, encodeQueryValue field comparison.value = .ok encoded ∧
    server.compares field.column.text comparison.kind encoded = some test ∧ test stored = true

/-- How PostgreSQL evaluates the condition of a put. -/
structure ComparingServer.Lawful {Value : Type} (server : ComparingServer Value)
    (layout : ResourceLayout) : Prop where
  /-- A condition is refused with any of its values. -/
  refuses : ∀ tableAlias scope statement compared, Joins tableAlias statement compared →
    server.refuses (comparedCondition tableAlias scope statement) =
      compared.any fun comparison =>
        (server.compares comparison.column comparison.kind comparison.value).isNone
  holds : ∀ tableAlias scope statement compared record, Joins tableAlias statement compared →
    (server.holds (comparedCondition tableAlias scope statement) record = true ↔
      (∀ entry ∈ scope, record.contents entry.1 = server.store entry.1 (ownerParameter entry)) ∧
      ∀ comparison ∈ compared, ∃ test,
        server.compares comparison.column comparison.kind comparison.value = some test ∧
          test (record.contents comparison.column) = true)
  nullable : ∀ field ∈ layout.fields, field.nullable = true → ∀ origin,
    server.storable field.column.text (nullValue origin) = true
  /-- One row is not a duplicate. -/
  single : ∀ record, server.unique [record] = true

/-! ## The record of a put -/

section Specification

variable {Value : Type} (reader : FilterReader) (server : ComparingServer Value)
  (layout : ResourceLayout) (scope : List (String × String)) (data : Json.Object)

/-- The column stores this value for what is given for a field. -/
def StoredFor (name : String) (stored : Value) : Prop :=
  ∃ field value statement, layout.field name = some field ∧ Json.get data name = some value ∧
    fieldValue field value = .ok statement ∧
    server.storable field.column.text statement = true ∧
    stored = server.store field.column.text statement

/-- The record in the scope of a put that has the identity of its data. -/
def IsOf (record : Record Value) : Prop :=
  (∀ entry ∈ scope, record.contents entry.1 = server.store entry.1 (ownerParameter entry)) ∧
    ∀ name ∈ layout.identity, StoredFor server layout data name
      (record.contents (columnOf layout name))

/-- Nothing but the one record of a put is written or returned. -/
structure Addressed (table after : Table Value) (returned : List (Record Value)) : Prop where
  written : ∀ record ∈ returned, IsOf server layout scope data record
  others : ∀ record, ¬ IsOf server layout scope data record → (record ∈ after ↔ record ∈ table)
  atMostOne : returned.length ≤ 1

/-- A value of the column of an identity field passes the comparisons that are
read from what is given for the field. -/
def PassesFor (name : String) (stored : Value) : Prop :=
  ∃ field value, layout.field name = some field ∧ Json.get data name = some value ∧
    ∀ comparison ∈ reader.fieldComparisons name value, server.Passes field comparison stored

/-- Only what the column stores for the given value passes its comparisons. -/
def Exact (name : String) : Prop :=
  ∀ stored, PassesFor reader server layout data name stored → StoredFor server layout data name stored

/-- No value passes. -/
def Impossible (name : String) : Prop := ∀ stored, ¬ PassesFor reader server layout data name stored

/-- What is given for mutable fields can be stored. -/
def Storable : Prop :=
  ∀ field ∈ DMLCompiler.mutableFields layout, ∀ value, Json.get data field.name = some value →
    ∀ statement, fieldValue field value = .ok statement →
      server.storable field.column.text statement = true

/-- Some version is the expected one. -/
def VersionExists (input : Json.Object) : Prop :=
  ∀ expected, member input "expectedVersion" = some expected →
    server.readsVersion expected = true ∧ ∃ version, server.versionIs expected version = true

end Specification

/-! ## Rows of a key -/

section Rows

variable {Value : Type} {server : ComparingServer Value} {compiler : DMLCompiler}
  {layout : ResourceLayout} {context : OperationContext} {scope : List (String × String)}
  {data : Json.Object}

theorem StoredFor.unique {name : String} {stored other : Value}
    (first : StoredFor server layout data name stored)
    (second : StoredFor server layout data name other) : stored = other := by
  obtain ⟨field, value, statement, found, given, statementOk, _, rfl⟩ := first
  obtain ⟨_, _, _, otherFound, otherGiven, otherOk, _, rfl⟩ := second
  cases found.symm.trans otherFound
  cases given.symm.trans otherGiven
  cases statementOk.symm.trans otherOk
  rfl

/-- The records of a put are those of one key. -/
theorem IsOf.key_iff (scopeOk : compiler.scopeValues context = .ok scope) {record : Record Value}
    (own : IsOf server layout scope data record) (other : Record Value) :
    IsOf server layout scope data other ↔
      recordKey (primaryKey compiler.settings layout) other =
        recordKey (primaryKey compiler.settings layout) record := by
  rw [recordKey, recordKey, List.map_inj_left, primaryKey, ← scope_columns scopeOk]
  constructor
  · intro same column listed
    rcases List.mem_append.mp listed with owner | identity
    · obtain ⟨entry, member, rfl⟩ := List.mem_map.mp owner
      rw [same.1 entry member, own.1 entry member]
    · obtain ⟨name, member, rfl⟩ := List.mem_map.mp identity
      exact (same.2 name member).unique (own.2 name member)
  · intro equal
    constructor
    · intro entry member
      rw [equal _ (List.mem_append_left _ (List.mem_map_of_mem member))]
      exact own.1 entry member
    · intro name member
      rw [equal _ (List.mem_append_right _ (List.mem_map_of_mem member))]
      exact own.2 name member

variable {keys : List String} {table : Table Value}

/-- Rows of one key are one row. -/
theorem filter_length_le (keyed : Keyed keys table) {chosen : Record Value → Bool}
    (same : ∀ record ∈ table, chosen record = true → ∀ other ∈ table, chosen other = true →
      recordKey keys record = recordKey keys other) : (table.filter chosen).length ≤ 1 := by
  have distinct : ((table.filter chosen).map (recordKey keys)).Nodup :=
    keyed.sublist (List.filter_sublist.map _)
  cases rows : table.filter chosen with
  | nil => exact Nat.zero_le 1
  | cons first rest =>
      cases rest with
      | nil => exact Nat.le_refl 1
      | cons second rest =>
          have listed : ∀ record ∈ first :: second :: rest, record ∈ table ∧ chosen record = true :=
            fun record member => List.mem_filter.mp (rows ▸ member)
          obtain ⟨inside, held⟩ := listed first List.mem_cons_self
          obtain ⟨within, holds⟩ := listed second (List.mem_cons_of_mem _ List.mem_cons_self)
          rw [rows] at distinct
          have apart := (List.nodup_cons.mp distinct).1
          rw [same first inside held second within holds] at apart
          exact absurd List.mem_cons_self apart

/-- A change of chosen rows, all of them of the put, that leaves their keys. -/
theorem addressed_change (scopeOk : compiler.scopeValues context = .ok scope)
    (keyed : Keyed (primaryKey compiler.settings layout) table)
    {chosen : Record Value → Bool} {change : Record Value → Record Value}
    (kept : ∀ record, recordKey (primaryKey compiler.settings layout) (change record) =
      recordKey (primaryKey compiler.settings layout) record)
    (own : ∀ record ∈ table, chosen record = true → IsOf server layout scope data record) :
    Addressed server layout scope data table
      (table.map fun record => if chosen record then change record else record)
      ((table.filter chosen).map change) := by
  have changed : ∀ record ∈ table, chosen record = true →
      IsOf server layout scope data (change record) := fun record listed held =>
    ((own record listed held).key_iff scopeOk _).mpr (kept record)
  constructor
  · intro record listed
    obtain ⟨old, member, rfl⟩ := List.mem_map.mp listed
    obtain ⟨inside, held⟩ := List.mem_filter.mp member
    exact changed old inside held
  · intro record foreign
    constructor
    · intro listed
      obtain ⟨old, member, rfl⟩ := List.mem_map.mp listed
      cases held : chosen old with
      | true => simp [held, changed old member held] at foreign
      | false => simpa using member
    · intro listed
      refine List.mem_map.mpr ⟨record, listed, if_neg ?_⟩
      exact fun held => foreign (own record listed held)
  · rw [List.length_map]
    apply filter_length_le keyed
    intro record listed held other member holds
    exact ((own other member holds).key_iff scopeOk record).mp (own record listed held)

end Rows

/-! ## Statements of a put -/

/-- What an accepted put has passed. -/
structure AcceptedPut (compiler : DMLCompiler) (layout : ResourceLayout)
    (context : OperationContext) (data : Json.Object) (scope : List (String × String))
    (values : List (String × DMLStatement)) : Prop where
  checked : DMLCompiler.checkFields "put" layout data = .ok ()
  scopeOk : compiler.scopeValues context = .ok scope
  valuesOk : fieldValues layout data = .ok values

/-- The three statements of a put: an insertion, and two updates of what the
identity values find. -/
inductive PutStatement (compiler : DMLCompiler) (layout : ResourceLayout)
    (context : OperationContext) (input data : Json.Object) (scope : List (String × String))
    (values : List (String × DMLStatement)) : Mutation → Prop
  | inserts {upsert} (conditional : isConditional input = false)
      (upserts : upsert = none ∨ upsert = some (primaryKey compiler.settings layout,
        DMLCompiler.mutableColumns layout)) :
      PutStatement compiler layout context input data scope values
        (compiler.insertMutation scope values upsert)
  | replaces {changes condition} (conditional : isConditional input = true)
      (unversioned : member input "expectedVersion" = none)
      (changesOk : DMLCompiler.replacedValues layout data = .ok changes)
      (conditionOk : compiler.condition layout (DMLCompiler.identityValues layout data) context
        "t" = .ok condition) :
      PutStatement compiler layout context input data scope values (.replace changes condition)
  | updates {changes condition expected} (conditional : isConditional input = true)
      (versioned : member input "expectedVersion" = some expected)
      (changesOk : compiler.assignedValues layout (changedData layout data) = .ok changes)
      (conditionOk : compiler.condition layout (DMLCompiler.identityValues layout data) context
        "t" = .ok condition) :
      PutStatement compiler layout context input data scope values
        (.update changes condition (some expected))

theorem lookupKey_ok {data : Json.Object} {name : String} {value : Json}
    (found : lookupKey data name = .ok value) : Json.get data name = some value := by
  unfold lookupKey at found
  split at found
  · cases found
    assumption
  · cases found

section Statements

variable {compiler : DMLCompiler} {layout : ResourceLayout} {context : OperationContext}
  {input data : Json.Object} {mutation : Mutation}

theorem putMutation_cases (dataOk : Json.get input "data" = some (.object data))
    (compiled : compiler.putMutation layout context input = .ok mutation) :
    ∃ scope values, AcceptedPut compiler layout context data scope values ∧
      PutStatement compiler layout context input data scope values mutation := by
  unfold DMLCompiler.putMutation at compiled
  rw [dataOk] at compiled
  obtain ⟨mode, modeOk, compiled⟩ := bind_eq_ok compiled
  obtain ⟨expected, versionOk, compiled⟩ := bind_eq_ok compiled
  obtain ⟨_, checked, compiled⟩ := bind_eq_ok compiled
  obtain ⟨_, _, compiled⟩ := bind_eq_ok compiled
  obtain ⟨scope, scopeOk, compiled⟩ := bind_eq_ok compiled
  obtain ⟨values, valuesOk, compiled⟩ := bind_eq_ok compiled
  have conditional := conditional_eq modeOk versionOk
  have version := putVersion_member versionOk
  refine ⟨scope, values, ⟨checked, scopeOk, valuesOk⟩, ?_⟩
  cases expected with
  | some expected =>
      unfold DMLCompiler.conditionalPutMutation at compiled
      dsimp only at compiled
      split at compiled
      · cases compiled
      · obtain ⟨changes, changesOk, compiled⟩ := bind_eq_ok compiled
        obtain ⟨condition, conditionOk, compiled⟩ := bind_eq_ok compiled
        cases compiled
        exact .updates conditional version.symm changesOk conditionOk
  | none =>
      obtain ⟨keys, keysOk, compiled⟩ := bind_eq_ok compiled
      cases mode with
      | update =>
          obtain ⟨changes, changesOk, compiled⟩ := bind_eq_ok compiled
          obtain ⟨identity, identityOk, compiled⟩ := bind_eq_ok compiled
          obtain ⟨condition, conditionOk, compiled⟩ := bind_eq_ok compiled
          cases compiled
          have supplied : ∀ name ∈ layout.identity, ∃ value, Json.get data name = some value := by
            intro name listed
            obtain ⟨_, _, looked⟩ := mapM_result identityOk listed
            obtain ⟨value, found, _⟩ := bind_eq_ok looked
            exact ⟨value, lookupKey_ok found⟩
          cases (identityValues_ok supplied).symm.trans identityOk
          exact .replaces conditional version.symm changesOk conditionOk
      | upsert =>
          cases compiled
          exact .inserts conditional (.inr (by rw [keyColumns_eq keysOk]))
      | ifAbsent =>
          cases compiled
          exact .inserts conditional (.inl rfl)

end Statements

/-! ## Insertions -/

section Insertions

variable {Value : Type} {server : ComparingServer Value} {compiler : DMLCompiler}
  {layout : ResourceLayout} {context : OperationContext} {input data : Json.Object}
  {scope : List (String × String)} {values : List (String × DMLStatement)}
  (valid : layout.check = .ok ()) (held : layout.isRegistry = false)
  (distinct : compiler.settings.scopeKeys.Nodup)
  (accepted : AcceptedPut compiler layout context data scope values)

include valid held distinct accepted

/-- The record that is inserted is the one of the put. -/
theorem given_own (stored : server.stores ((compiler.settings.scopeColumns ++
      values.map Prod.fst).zip (DMLCompiler.scopeParameters scope ++ values.map Prod.snd)) = true) :
    IsOf server layout scope data (givenRecord server.toEngine layout scope data) := by
  constructor
  · intro entry listed
    exact given_owner server.toEngine distinct accepted.scopeOk listed
  · intro name listed
    obtain ⟨field, value, _, found, given, _⟩ :=
      identity_supplied valid held accepted.checked accepted.valuesOk listed
    obtain ⟨present, rfl⟩ := field_found found
    obtain ⟨statement, statementOk, inside⟩ := supplied_statement accepted.valuesOk found given
    rw [inserted_values accepted.scopeOk, PutServer.stores, List.all_append, Bool.and_eq_true,
      List.all_eq_true, List.all_eq_true] at stored
    refine ⟨field, value, statement, found, given, statementOk, stored.2 _ inside, ?_⟩
    rw [columnOf_found found, given_contents server.toEngine valid accepted.scopeOk present, given]
    simp [statementOk, Except.toOption]

variable [DecidableEq Value] {table after : Table Value} {returned : List (Record Value)}

theorem insertion_addressed {upsert : Option (List String × List String)}
    (upserts : upsert = none ∨ upsert = some (primaryKey compiler.settings layout,
      DMLCompiler.mutableColumns layout))
    (keyed : Keyed (primaryKey compiler.settings layout) table)
    (completed : server.perform (primaryKey compiler.settings layout)
      (compiler.insertMutation scope values upsert) table = .completed after returned) :
    Addressed server layout scope data table after returned := by
  rw [DMLCompiler.insertMutation, PutServer.perform] at completed
  split at completed
  · cases completed
  · rename_i stored
    have own := given_own valid held distinct accepted (by simpa using (not_or.mp stored).1)
    rw [inserted_eq server.toEngine valid held accepted.scopeOk accepted.valuesOk] at completed
    unfold PutServer.insertRow at completed
    split at completed
    · obtain ⟨rfl, rfl, _⟩ := settle_completed completed
      constructor
      · intro record listed
        exact List.mem_singleton.mp listed ▸ own
      · intro record foreign
        have other : record ≠ givenRecord server.toEngine layout scope data :=
          fun same => foreign (same ▸ own)
        simp [other]
      · exact Nat.le_refl 1
    · cases completed
    · rename_i old clauseKeys taken present
      obtain ⟨rfl, rfl, _⟩ := settle_completed completed
      obtain upsertOk | upsertOk := upserts
      · cases upsertOk
      · cases upsertOk
        have changed := @addressed_change Value server compiler layout context scope data table
          accepted.scopeOk keyed
          (fun record => decide (recordKey (primaryKey compiler.settings layout) record =
            recordKey (primaryKey compiler.settings layout)
              (givenRecord server.toEngine layout scope data)))
          (upserted (DMLCompiler.mutableColumns layout)
            (givenRecord server.toEngine layout scope data))
          (fun record => upserted_key (mutableColumns_outside valid) _ record)
          (fun record _ same => (own.key_iff accepted.scopeOk record).mpr (of_decide_eq_true same))
        rw [filter_key keyed, present] at changed
        simpa using changed

end Insertions

/-! ## What a condition finds -/

theorem forall₂_exists {α β : Type} {related : α → β → Prop} {left : List α} {right : List β}
    (pairs : List.Forall₂ related left right) {item : α} (listed : item ∈ left) :
    ∃ other ∈ right, related item other := by
  induction pairs with
  | nil => cases listed
  | cons first _ induction =>
      rcases List.mem_cons.mp listed with rfl | later
      · exact ⟨_, List.mem_cons_self, first⟩
      · obtain ⟨other, inside, held⟩ := induction later
        exact ⟨other, List.mem_cons_of_mem _ inside, held⟩

theorem fieldComparisons_field {reader : FilterReader} {name : String} {value : Json}
    {comparison : Comparison}
    (listed : comparison ∈ reader.fieldComparisons name value) : comparison.field = name := by
  unfold FilterReader.fieldComparisons at listed
  split at listed
  · obtain ⟨operator, _, read⟩ := List.mem_filterMap.mp listed
    obtain ⟨kind, _, rfl⟩ := Option.map_eq_some_iff.mp read
    rfl
  · rw [List.mem_singleton.mp listed]

section Found

variable {Value : Type} {reader : FilterReader} {server : ComparingServer Value}
  {compiler : DMLCompiler}
  {layout : ResourceLayout} {context : OperationContext} {data : Json.Object}
  {scope : List (String × String)}

theorem mem_identity_comparisons {comparison : Comparison} :
    comparison ∈ reader.comparisons (DMLCompiler.identityValues layout data) ↔
      ∃ name ∈ layout.identity, ∃ value, Json.get data name = some value ∧
        comparison ∈ reader.fieldComparisons name value := by
  unfold FilterReader.comparisons
  rw [List.mem_flatMap]
  constructor
  · rintro ⟨entry, listed, member⟩
    obtain ⟨inside, given⟩ := mem_identityValues.mp listed
    exact ⟨entry.1, inside, entry.2, given, member⟩
  · rintro ⟨name, inside, value, given, member⟩
    exact ⟨(name, value), mem_identityValues.mpr ⟨inside, given⟩, member⟩

/-- A condition finds the records of the scope whose identity columns pass the
comparisons of the identity values, and is not refused where it finds one. -/
structure Finds (reader : FilterReader) (server : ComparingServer Value) (layout : ResourceLayout)
    (scope : List (String × String)) (data : Json.Object) (condition : DMLStatement) : Prop where
  holds_iff : ∀ record, server.holds condition record = true ↔
    (∀ entry ∈ scope, record.contents entry.1 = server.store entry.1 (ownerParameter entry)) ∧
      ∀ name ∈ layout.identity,
        PassesFor reader server layout data name (record.contents (columnOf layout name))
  accepted : ∀ record, server.holds condition record = true → server.refuses condition = false

theorem compared_finds (laws : server.Lawful layout)
    (supplied : ∀ name ∈ layout.identity, ∃ field value, layout.field name = some field ∧
      Json.get data name = some value) {listed : List Comparison} {statement : QueryStatement}
    {compared : List ColumnComparison}
    (rearranged : listed.Perm (reader.comparisons (DMLCompiler.identityValues layout data)))
    (bound : List.Forall₂ (BoundFor layout) listed compared)
    (joins : Joins "t" statement compared) :
    Finds reader server layout scope data (comparedCondition "t" scope statement) := by
  constructor
  · intro record
    rw [laws.holds _ _ _ _ _ joins]
    apply and_congr_right
    intro _
    constructor
    · intro passes name listed
      obtain ⟨field, value, found, given⟩ := supplied name listed
      refine ⟨field, value, found, given, ?_⟩
      intro comparison member
      have inside := rearranged.mem_iff.mpr
        (mem_identity_comparisons.mpr ⟨name, listed, value, given, member⟩)
      obtain ⟨other, within, same, sameFound, column, kind, encodedOk⟩ :=
        forall₂_exists bound inside
      rw [fieldComparisons_field member, found] at sameFound
      cases sameFound
      obtain ⟨test, compares, holds⟩ := passes other within
      rw [column, kind] at compares
      rw [column, ← columnOf_found found] at holds
      exact ⟨other.value, test, encodedOk, compares, holds⟩
    · intro passes other within
      obtain ⟨comparison, inside, field, found, column, kind, encodedOk⟩ :=
        forall₂_exists bound.flip within
      obtain ⟨name, listed, value, given, member⟩ :=
        mem_identity_comparisons.mp (rearranged.mem_iff.mp inside)
      rw [fieldComparisons_field member] at found
      obtain ⟨same, sameValue, sameFound, sameGiven, each⟩ := passes name listed
      cases found.symm.trans sameFound
      cases given.symm.trans sameGiven
      obtain ⟨encoded, test, sameOk, compares, holds⟩ := each comparison member
      cases encodedOk.symm.trans sameOk
      rw [columnOf_found found] at holds
      rw [column, kind]
      exact ⟨test, compares, holds⟩
  · intro record holds
    rw [laws.refuses _ _ _ _ joins, List.any_eq_false]
    intro other within
    obtain ⟨test, compares, _⟩ := ((laws.holds _ _ _ _ _ joins).mp holds).2 other within
    simp [compares]

theorem condition_finds (laws : server.Lawful layout)
    (reads : ReadsFilters reader layout compiler.parseFilter)
    (valid : layout.check = .ok ()) (held : layout.isRegistry = false)
    {values : List (String × DMLStatement)}
    (accepted : AcceptedPut compiler layout context data scope values)
    (documented : reader.DocumentedIdentity layout data) {condition : DMLStatement}
    (conditionOk : compiler.condition layout (DMLCompiler.identityValues layout data) context
      "t" = .ok condition) : Finds reader server layout scope data condition := by
  have supplied : ∀ name ∈ layout.identity, ∃ field value, layout.field name = some field ∧
      Json.get data name = some value := by
    intro name listed
    obtain ⟨field, value, _, found, given, _⟩ :=
      identity_supplied valid held accepted.checked accepted.valuesOk listed
    exact ⟨field, value, found, given⟩
  have present : DMLCompiler.identityValues layout data ≠ [] := by
    obtain ⟨registry, _⟩ | ⟨_, sound⟩ := checked_of_check valid
    · rw [held] at registry
      cases registry
    · obtain ⟨name, listed⟩ := List.exists_mem_of_ne_nil _ sound.identity.1
      obtain ⟨_, value, _, given⟩ := supplied name listed
      exact List.ne_nil_of_mem (mem_identityValues.mpr (⟨listed, given⟩ : (name, value).1 ∈ _ ∧ _))
  obtain ⟨listed, statement, compared, rearranged, bound, joins, rfl⟩ :=
    condition_compared reads (documented.documented valid present) accepted.scopeOk conditionOk
  exact compared_finds laws supplied rearranged bound joins

end Found

/-! ## Conditional puts -/

/-- How a put that finds its record changes a table. The chosen records are in
the scope and pass the comparisons, and keep their keys. Any contents that pass
are chosen in some version, where the values can be stored and the version read. -/
structure Chooses {Value : Type} [DecidableEq Value] (reader : FilterReader)
    (server : ComparingServer Value) (keys : List String) (layout : ResourceLayout)
    (scope : List (String × String))
    (input data : Json.Object) (mutation : Mutation) (chosen : Record Value → Bool)
    (change : Record Value → Record Value) : Prop where
  kept : ∀ record, recordKey keys (change record) = recordKey keys record
  completes : ∀ {table after returned},
    server.perform keys mutation table = .completed after returned →
      Storable server layout data ∧
        (∀ expected, member input "expectedVersion" = some expected →
          server.readsVersion expected = true) ∧
        after = table.map (fun record => if chosen record then change record else record) ∧
        returned = (table.filter chosen).map change
  finds : ∀ record, chosen record = true →
    (∀ expected, member input "expectedVersion" = some expected →
        server.versionIs expected record.version = true) ∧
      (∀ entry ∈ scope, record.contents entry.1 = server.store entry.1 (ownerParameter entry)) ∧
      ∀ name ∈ layout.identity,
        PassesFor reader server layout data name (record.contents (columnOf layout name))
  runs : Storable server layout data → VersionExists server input → ∀ contents : String → Value,
    (∀ entry ∈ scope, contents entry.1 = server.store entry.1 (ownerParameter entry)) →
      (∀ name ∈ layout.identity, PassesFor reader server layout data name
        (contents (columnOf layout name))) →
      ∃ version, server.perform keys mutation [⟨contents, version⟩] =
        .completed [change ⟨contents, version⟩] [change ⟨contents, version⟩]

section Conditional

variable {Value : Type} [DecidableEq Value] {reader : FilterReader}
  {server : ComparingServer Value} {compiler : DMLCompiler} {layout : ResourceLayout}
  {input data : Json.Object}
  {scope : List (String × String)} {condition : DMLStatement}
  {changes : List (String × DMLStatement)} (laws : server.Lawful layout)
  (valid : layout.check = .ok ()) (finds : Finds reader server layout scope data condition)

omit [DecidableEq Value] in
include laws in
theorem replaced_stores (changesOk : DMLCompiler.replacedValues layout data = .ok changes) :
    server.stores changes = true ↔ Storable server layout data := by
  rw [PutServer.stores, List.all_eq_true]
  constructor
  · intro stored field listed value given statement statementOk
    obtain ⟨result, inside, made⟩ := mapM_result changesOk listed
    rw [given, Option.getD_some, statementOk] at made
    cases made
    exact stored _ inside
  · intro storable
    apply forall_of_mapM (fun change : String × DMLStatement =>
      server.storable change.1 change.2 = true) changesOk
    intro field result listed made
    obtain ⟨statement, statementOk, made⟩ := bind_eq_ok made
    cases made
    rcases replaced_statement statementOk with ⟨value, given, supplied⟩ | ⟨_, nullable, rfl⟩
    · exact storable field listed value given statement supplied
    · exact laws.nullable field (mem_mutableFields.mp listed).1 nullable _

include laws valid finds in
theorem replaces_chooses (unversioned : member input "expectedVersion" = none)
    (changesOk : DMLCompiler.replacedValues layout data = .ok changes) :
    Chooses reader server (primaryKey compiler.settings layout) layout scope input data
      (.replace changes condition) (server.holds condition)
      (replaced server.toEngine changes) where
  kept := replaced_key (replacedValues_outside valid changesOk)
  completes := by
    intro table after returned completed
    rw [PutServer.perform] at completed
    split at completed
    · cases completed
    · rename_i accepted
      obtain ⟨rfl, rfl, _⟩ := settle_completed completed
      refine ⟨(replaced_stores laws changesOk).mp ?_, ?_, rfl, rfl⟩
      · simpa using (not_or.mp accepted).2
      · intro expected named
        rw [unversioned] at named
        cases named
  finds := by
    intro record chosen
    refine ⟨?_, (finds.holds_iff record).mp chosen⟩
    intro expected named
    rw [unversioned] at named
    cases named
  runs := by
    intro storable _ contents owned passes
    have chosen := (finds.holds_iff ⟨contents, 0⟩).mpr ⟨owned, passes⟩
    have stored := (replaced_stores laws changesOk).mpr storable
    refine ⟨0, ?_⟩
    simp [PutServer.perform, finds.accepted _ chosen, stored, chosen, PutServer.settle,
      laws.single]

theorem assignedValues_cases {values : List (String × DMLStatement)}
    (compiled : compiler.assignedValues layout data = .ok values) :
    immutableNames layout data = [] ∧ fieldValues layout data = .ok values := by
  unfold DMLCompiler.assignedValues at compiled
  dsimp only at compiled
  split at compiled
  · cases compiled
  · split at compiled
    · cases compiled
    · rename_i accepted
      obtain ⟨_, _, compiled⟩ := bind_eq_ok compiled
      exact ⟨not_not.mp (not_or.mp accepted).2, compiled⟩

omit [DecidableEq Value] in
include valid in
theorem assigned_stores (held : layout.isRegistry = false) (distinct : (Json.names data).Nodup)
    (changesOk : compiler.assignedValues layout (changedData layout data) = .ok changes) :
    server.stores changes = true ↔ Storable server layout data := by
  obtain ⟨mutable, valuesOk⟩ := assignedValues_cases changesOk
  have only := (immutableNames_changed valid held).mp mutable
  rw [PutServer.stores, List.all_eq_true]
  constructor
  · intro stored field listed value given statement statementOk
    obtain ⟨inside, _, free⟩ := mem_mutableFields.mp listed
    have changed : Json.get (changedData layout data) field.name = some value := by
      rw [get_changed, if_neg free, given]
    obtain ⟨other, otherOk, member⟩ :=
      supplied_statement valuesOk (field_of_mem valid held inside) changed
    cases statementOk.symm.trans otherOk
    exact stored _ member
  · intro storable
    apply forall_of_mapM (fun change : String × DMLStatement =>
      server.storable change.1 change.2 = true) valuesOk
    intro entry result listed made
    obtain ⟨inside, free⟩ := List.mem_filter.mp listed
    obtain ⟨field, fieldOk, made⟩ := bind_eq_ok made
    obtain ⟨statement, statementOk, made⟩ := bind_eq_ok made
    cases made
    obtain ⟨present, named⟩ := field_found (namedField_found fieldOk)
    have given : Json.get data field.name = some entry.2 := by
      rw [named]
      exact (Json.get_eq_some_iff distinct).mpr inside
    have outside : field.name ∉ layout.identity := by simpa [named] using free
    have changes := only field present (by rw [given]; rfl) outside
    exact storable field (mem_mutableFields.mpr ⟨present, changes, outside⟩) entry.2 given
      statement statementOk

include laws valid finds in
theorem updates_chooses (held : layout.isRegistry = false) (distinct : (Json.names data).Nodup)
    {expected : Json} (versioned : member input "expectedVersion" = some expected)
    (changesOk : compiler.assignedValues layout (changedData layout data) = .ok changes) :
    Chooses reader server (primaryKey compiler.settings layout) layout scope input data
      (.update changes condition (some expected))
      (required server.toEngine condition (some expected))
      (advanced server.toEngine changes) where
  kept := assignedContents_key (assignedValues_outside valid changesOk)
  completes := by
    intro table after returned completed
    rw [PutServer.perform] at completed
    split at completed
    · cases completed
    · rename_i accepted
      obtain ⟨rfl, rfl, _⟩ := settle_completed completed
      simp only [not_or, Bool.not_eq_true, Bool.not_eq_false, Option.all_some] at accepted
      refine ⟨(assigned_stores valid held distinct changesOk).mp accepted.2.1, ?_, rfl, rfl⟩
      intro other named
      cases versioned.symm.trans named
      exact accepted.2.2
  finds := by
    intro record chosen
    obtain ⟨holds, version⟩ := (Bool.and_eq_true _ _).mp chosen
    refine ⟨?_, (finds.holds_iff record).mp holds⟩
    intro other named
    cases versioned.symm.trans named
    exact version
  runs := by
    intro storable exists_ contents owned passes
    obtain ⟨readable, version, named⟩ := exists_ expected versioned
    have chosen := (finds.holds_iff ⟨contents, version⟩).mpr ⟨owned, passes⟩
    have stored := (assigned_stores valid held distinct changesOk).mpr storable
    refine ⟨version, ?_⟩
    simp [PutServer.perform, finds.accepted _ chosen, stored, readable, required, chosen, named,
      PutServer.settle, laws.single]

end Conditional

/-! ## Addresses -/

/-- Contents with given values in the identity columns. -/
def identityContents {Value : Type} (engine : Engine Value) (layout : ResourceLayout)
    (scope : List (String × String)) (picked : String → Value) (column : String) : Value :=
  match scope.lookup column with
  | some owner => engine.store column (ownerParameter (column, owner))
  | none =>
      ((layout.identity.find? fun name => columnOf layout name = column).map picked).getD
        engine.null

section Addresses

variable {Value : Type} {reader : FilterReader} {server : ComparingServer Value}
  {compiler : DMLCompiler} {layout : ResourceLayout} {context : OperationContext}
  {input data : Json.Object}
  {scope : List (String × String)}

theorem identityContents_owner (engine : Engine Value)
    (distinct : compiler.settings.scopeKeys.Nodup)
    (scopeOk : compiler.scopeValues context = .ok scope) (picked : String → Value)
    {entry : String × String} (listed : entry ∈ scope) :
    identityContents engine layout scope picked entry.1 =
      engine.store entry.1 (ownerParameter entry) := by
  have names : (scope.map Prod.fst).Nodup :=
    scope_columns scopeOk ▸ Migration.scopeColumns_nodup distinct
  rw [identityContents, lookup_of_nodup names listed]

theorem identity_field (valid : layout.check = .ok ()) (held : layout.isRegistry = false)
    {name : String} (listed : name ∈ layout.identity) :
    ∃ field ∈ layout.fields, field.name = name := by
  obtain ⟨registry, _⟩ | ⟨_, sound⟩ := checked_of_check valid
  · rw [held] at registry
    cases registry
  · exact List.mem_map.mp (sound.identity.2.2 listed)

theorem identityContents_name (engine : Engine Value) (valid : layout.check = .ok ())
    (held : layout.isRegistry = false) (scopeOk : compiler.scopeValues context = .ok scope)
    (picked : String → Value) {name : String} (listed : name ∈ layout.identity) :
    identityContents engine layout scope picked (columnOf layout name) = picked name := by
  obtain ⟨field, inside, rfl⟩ := identity_field valid held listed
  have found := field_of_mem valid held inside
  have only : layout.identity.find? (fun name => columnOf layout name = columnOf layout field.name) =
      some field.name := by
    cases searched : layout.identity.find? fun name =>
        columnOf layout name = columnOf layout field.name with
    | none => simpa using List.find?_eq_none.mp searched field.name listed
    | some other =>
        obtain ⟨otherField, otherInside, rfl⟩ :=
          identity_field valid held (List.mem_of_find?_eq_some searched)
        have same := List.find?_some searched
        rw [decide_eq_true_eq, columnOf_found found,
          columnOf_found (field_of_mem valid held otherInside)] at same
        rw [List.inj_on_of_nodup_map (columns_nodup valid) otherInside inside (Identifier.ext same)]
  rw [identityContents, only, columnOf_found found, scope_lookup_none scopeOk valid inside]
  rfl

/-- A put that finds its record writes it and nothing else exactly when, with
values that can be stored and some version that is the expected one, no value
passes the comparisons of some identity field, or none but the given ones. -/
theorem Chooses.addressed_iff [DecidableEq Value] {mutation : Mutation}
    {chosen : Record Value → Bool} {change : Record Value → Record Value}
    (chooses : Chooses reader server (primaryKey compiler.settings layout) layout scope input data
      mutation chosen change) (laws : server.Lawful layout)
    (valid : layout.check = .ok ()) (held : layout.isRegistry = false)
    (distinct : compiler.settings.scopeKeys.Nodup)
    (scopeOk : compiler.scopeValues context = .ok scope) :
    (∀ table after returned, Keyed (primaryKey compiler.settings layout) table →
      server.unique table = true →
      server.perform (primaryKey compiler.settings layout) mutation table =
        .completed after returned → Addressed server layout scope data table after returned) ↔
      (Storable server layout data → VersionExists server input →
        (∃ name ∈ layout.identity, Impossible reader server layout data name) ∨
          ∀ name ∈ layout.identity, Exact reader server layout data name) := by
  constructor
  · intro addressed storable versions
    by_cases possible : ∃ name ∈ layout.identity, Impossible reader server layout data name
    · exact .inl possible
    · right
      intro name listed stored passes
      have each : ∀ other, ∃ value, other ∈ layout.identity →
          PassesFor reader server layout data other value := by
        intro other
        by_cases inside : other ∈ layout.identity
        · by_contra none
          exact possible ⟨other, inside, fun value held => none ⟨value, fun _ => held⟩⟩
        · exact ⟨stored, fun member => absurd member inside⟩
      choose passing passes_each using each
      -- one record whose other identity columns pass as well
      let picked := fun other => if other = name then stored else passing other
      obtain ⟨version, completed⟩ := chooses.runs storable versions
        (identityContents server.toEngine layout scope picked)
        (fun entry owned => identityContents_owner server.toEngine distinct scopeOk picked owned)
        (by
          intro other inside
          rw [identityContents_name server.toEngine valid held scopeOk picked inside]
          by_cases same : other = name
          · subst same
            simpa [picked] using passes
          · simpa [picked, same] using passes_each other inside)
      have keyed : Keyed (primaryKey compiler.settings layout)
          [⟨identityContents server.toEngine layout scope picked, version⟩] :=
        List.nodup_singleton _
      have own := (addressed _ _ _ keyed (laws.single _) completed).written _
        (List.mem_singleton_self _)
      have before := (own.key_iff scopeOk _).mpr (chooses.kept _).symm
      have found : StoredFor server layout data name
          (identityContents server.toEngine layout scope picked (columnOf layout name)) :=
        before.2 name listed
      rw [identityContents_name server.toEngine valid held scopeOk picked listed] at found
      simpa [picked] using found
  · intro condition table after returned keyed _ completed
    obtain ⟨storable, readable, rfl, rfl⟩ := chooses.completes completed
    apply addressed_change scopeOk keyed chooses.kept
    intro record _ inside
    obtain ⟨version, owned, passes⟩ := chooses.finds record inside
    have versions : VersionExists server input := fun expected named =>
      ⟨readable expected named, record.version, version expected named⟩
    rcases condition storable versions with ⟨name, listed, impossible⟩ | exact
    · exact absurd (passes name listed) (impossible _)
    · exact ⟨owned, fun name listed => exact name listed _ (passes name listed)⟩

end Addresses

/-- A put writes the record of its scope and identity and no other, whatever
the table holds, exactly when it inserts, or what it gives for its identity
fields passes for nothing but what their columns store of it. -/
theorem put_addressed_iff {Value : Type} [DecidableEq Value] {reader : FilterReader}
    {server : ComparingServer Value} {compiler : DMLCompiler} {layout : ResourceLayout}
    {context : OperationContext}
    {input data : Json.Object} {scope : List (String × String)} {command : DMLCommand}
    (settled : compiler.settings.check = .ok ())
    (resource : layout ∈ compiler.settings.resources) (held : layout.isRegistry = false)
    (laws : server.Lawful layout)
    (reads : ReadsFilters reader layout compiler.parseFilter)
    (dataOk : Json.get input "data" = some (.object data)) (distinct : (Json.names data).Nodup)
    (documented : isConditional input = true → reader.DocumentedIdentity layout data)
    (scopeOk : compiler.scopeValues context = .ok scope)
    (compiled : compiler.put layout input context = .ok command) :
    ∃ mutation, compiler.putMutation layout context input = .ok mutation ∧
      command.statement = mutation.statement compiler layout ∧
      ((∀ table after returned, Keyed (primaryKey compiler.settings layout) table →
        server.unique table = true →
        server.perform (primaryKey compiler.settings layout) mutation table =
          .completed after returned → Addressed server layout scope data table after returned) ↔
        (isConditional input = true → Storable server layout data → VersionExists server input →
          (∃ name ∈ layout.identity, Impossible reader server layout data name) ∨
            ∀ name ∈ layout.identity, Exact reader server layout data name)) := by
  have sound := settings_checked settled
  have valid := sound.layouts layout resource
  obtain ⟨mutation, mutationOk, same⟩ :=
    mutation_of_command (compiler.put_eq layout context input) compiled
  refine ⟨mutation, mutationOk, same, ?_⟩
  obtain ⟨found, values, accepted, statement⟩ := putMutation_cases dataOk mutationOk
  cases scopeOk.symm.trans accepted.scopeOk
  cases statement with
  | inserts conditional upserts =>
      constructor
      · intro _ finds
        rw [conditional] at finds
        cases finds
      · intro _ table after returned keyed _ completed
        exact insertion_addressed valid held sound.scopeKeys accepted upserts keyed completed
  | replaces conditional unversioned changesOk conditionOk =>
      have finds := condition_finds laws reads valid held accepted (documented conditional)
        conditionOk
      rw [(replaces_chooses laws valid finds unversioned changesOk).addressed_iff laws valid held
        sound.scopeKeys scopeOk]
      exact ⟨fun exact _ => exact, fun exact => exact conditional⟩
  | updates conditional versioned changesOk conditionOk =>
      have finds := condition_finds laws reads valid held accepted (documented conditional)
        conditionOk
      rw [(updates_chooses laws valid finds held distinct versioned changesOk).addressed_iff laws
        valid held sound.scopeKeys scopeOk]
      exact ⟨fun exact _ => exact, fun exact => exact conditional⟩

/-! ## Examples -/

def allKinds : List BinaryKind :=
  [.eq, .ne, .lt, .lte, .gt, .gte, .add, .subtract, .multiply, .divide, .modulo]

def readKind (sql : String) : Option BinaryKind :=
  allKinds.find? fun kind => kind.operator = sql

theorem readKind_operator (kind : BinaryKind) : readKind kind.operator = some kind := by
  cases kind <;> decide

def kindsOf (command : Sql Origin) : List BinaryKind :=
  command.filterMap fun piece =>
    match piece with
    | .text sql => readKind sql
    | _ => none

/-- Values of one type are ordered. -/
def jsonOrder : Json → Json → Option Ordering
  | .string left, .string right => some (compare left right)
  | .int left, .int right => some (compare left right)
  | .bool left, .bool right => some (compare left right)
  | _, _ => none

def BinaryKind.passes (kind : BinaryKind) (order : Ordering) : Bool :=
  match kind with
  | .eq => order.isEq
  | .ne => order.isNe
  | .lt => order.isLT
  | .lte => order.isLE
  | .gt => order.isGT
  | .gte => order.isGE
  | _ => false

def jsonTest (kind : BinaryKind) (value stored : Json) : Bool :=
  (jsonOrder stored value).any kind.passes

/-- What a condition compares, how, and with what. -/
def comparedTests (condition : DMLStatement) : List (String × Option (Json → Bool)) :=
  ((qualifiedColumns (namesOf condition.command)).zip ((kindsOf condition.command).zip
    (condition.parameters.map fun parameter => boundScalar parameter.value))).map
    fun compared => (compared.1, compared.2.2.map (jsonTest compared.2.1))

/-- A server that compares texts, numbers and truth values in their order. -/
def comparingServer : ComparingServer Json where
  toPutServer := { plainServer with
    holds := fun condition record => (comparedTests condition).all fun compared =>
      compared.2.any fun test => test (record.contents compared.1)
    refuses := fun condition => (comparedTests condition).any fun compared =>
      compared.2.isNone }
  compares := fun _ kind value => (scalarValue value).map (jsonTest kind)

theorem kindsOf_append (left right : Sql Origin) :
    kindsOf (left ++ right) = kindsOf left ++ kindsOf right := List.filterMap_append

theorem kindsOf_joined {separator : String} (silent : readKind separator = none)
    (parts : List (Sql Origin)) : kindsOf (joined separator parts) = parts.flatMap kindsOf :=
  filterMap_joined silent parts

theorem namesOf_conjunction {Value : Type} (parts : List (BoundStatement Origin Value)) :
    namesOf (conjunction parts).command = parts.flatMap fun part => namesOf part.command := by
  cases parts with
  | nil => rfl
  | cons first rest =>
      simp only [conjunction, namesOf_append, namesOf_joined, List.flatMap_map]
      exact List.append_nil _

theorem kindsOf_conjunction {Value : Type} (parts : List (BoundStatement Origin Value)) :
    kindsOf (conjunction parts).command = parts.flatMap fun part => kindsOf part.command := by
  have silent : readKind ") AND (" = none := by decide
  have edges : kindsOf ([.text "("] : Sql Origin) = [] ∧ kindsOf ([.text ")"] : Sql Origin) = [] ∧
      kindsOf ([.text "TRUE"] : Sql Origin) = [] := by decide
  cases parts with
  | nil => exact edges.2.2
  | cons first rest =>
      simp only [conjunction, kindsOf_append, edges, kindsOf_joined silent, List.flatMap_map,
        List.append_nil, List.nil_append]

theorem parameters_conjunction {Value : Type} (parts : List (BoundStatement Origin Value)) :
    (conjunction parts).parameters = parts.flatMap BoundStatement.parameters := by
  cases parts <;> rfl

theorem kindsOf_comparison (tableAlias : String) (comparison : ColumnComparison) :
    kindsOf (comparison.query tableAlias).command = [comparison.kind] := by
  have plain : readKind "(" = none ∧ readKind ")" = none ∧ readKind "." = none := by decide
  simp [ColumnComparison.query, binaryStatement, ident, kindsOf, plain, readKind_operator]

/-- What a statement that joins comparisons names, how it compares and with what. -/
theorem Joins.parts {tableAlias : String} {statement : QueryStatement}
    {compared : List ColumnComparison} (joins : Joins tableAlias statement compared) :
    namesOf statement.command =
        (compared.map ColumnComparison.column).flatMap (fun column => [tableAlias, column]) ∧
      kindsOf statement.command = compared.map ColumnComparison.kind ∧
      statement.parameters = compared.map fun comparison =>
        ⟨comparison.origin, comparison.value⟩ := by
  induction joins with
  | one comparison => exact ⟨rfl, kindsOf_comparison tableAlias comparison, rfl⟩
  | all _ induction =>
      rw [namesOf_conjunction, kindsOf_conjunction, parameters_conjunction]
      simp only [List.flatMap_map, List.map_flatMap, List.flatMap_assoc]
      simp only [List.flatMap_map] at induction
      exact ⟨List.flatMap_congr fun part inside => (induction part inside).1,
        List.flatMap_congr fun part inside => (induction part inside).2.1,
        List.flatMap_congr fun part inside => (induction part inside).2.2⟩

theorem kindsOf_scope (tableAlias : String) (scope : List (String × String)) :
    kindsOf (DMLCompiler.scopeCondition tableAlias scope).command =
      scope.map fun _ => BinaryKind.eq := by
  have silent : readKind " AND " = none := by decide
  have owner : ∀ entry : String × String, kindsOf (ident [tableAlias, entry.1] ++
      [Piece.text " = ", .slot (.scope tableAlias entry.1)]) = [BinaryKind.eq] := by
    intro entry
    have equal : readKind "." = none ∧ readKind " = " = some .eq := by decide
    simp [kindsOf, ident, equal]
  rw [DMLCompiler.scopeCondition, kindsOf_joined silent, List.flatMap_map, List.map_eq_flatMap]
  simp only [owner]

theorem comparedTests_compared {tableAlias : String} (scope : List (String × String))
    {statement : QueryStatement} {compared : List ColumnComparison}
    (joins : Joins tableAlias statement compared) :
    comparedTests (comparedCondition tableAlias scope statement) =
      (scope.map fun entry => (entry.1, some (jsonTest .eq (.string entry.2)))) ++
        compared.map fun comparison =>
          (comparison.column, (scalarValue comparison.value).map (jsonTest comparison.kind)) := by
  obtain ⟨columns, comparisons, bound⟩ := joins.parts
  have names : namesOf (comparedCondition tableAlias scope statement).command =
      (scope.map Prod.fst ++ compared.map ColumnComparison.column).flatMap fun column =>
        [tableAlias, column] := by
    simp only [comparedCondition, namesOf_conjunction, List.flatMap_cons, List.flatMap_nil,
      plainParameters, columns, List.flatMap_append, DMLCompiler.scopeCondition, namesOf_joined,
      List.flatMap_map]
    simp [namesOf, ident]
  have kinds : kindsOf (comparedCondition tableAlias scope statement).command =
      (scope.map fun _ => BinaryKind.eq) ++ compared.map ColumnComparison.kind := by
    simp only [comparedCondition, kindsOf_conjunction, List.flatMap_cons, List.flatMap_nil,
      plainParameters, comparisons, kindsOf_scope, List.append_nil]
  have parameters : (comparedCondition tableAlias scope statement).parameters.map
      (fun parameter => boundScalar parameter.value) =
      (scope.map fun entry => some (.string entry.2)) ++
        compared.map fun comparison => scalarValue comparison.value := by
    simp [comparedCondition, conjunction, allParameters, DMLCompiler.scopeCondition,
      plainParameters, bound, boundScalar, scalarValue, isScalar, Function.comp_def]
  rw [comparedTests, names, kinds, parameters, qualifiedColumns_flatMap,
    List.zip_append (by simp), List.zip_append (by simp), List.zip_map', List.zip_map',
    List.zip_map', List.zip_map', List.map_append, List.map_map, List.map_map]
  rfl

theorem jsonTest_string {text : String} {stored : Json} :
    jsonTest .eq (.string text) stored = true ↔ stored = .string text := by
  cases stored with
  | string other =>
      change (compare other text).isEq = true ↔ _
      rw [Ordering.isEq_iff_eq_eq, compare_eq_iff_eq, Json.string.injEq]
  | _ => exact iff_of_false Bool.false_ne_true Json.noConfusion

theorem comparingServer_lawful (layout : ResourceLayout) : comparingServer.Lawful layout where
  refuses := by
    intro tableAlias scope statement compared joins
    simp [comparingServer, comparedTests_compared scope joins, Function.comp_def]
  holds := by
    intro tableAlias scope statement compared record joins
    simp only [comparingServer, comparedTests_compared scope joins, List.all_append, Bool.and_eq_true,
      List.all_map, List.all_eq_true, Function.comp_def, Option.any_some, Option.any_eq_true,
      jsonTest_string]
    rfl
  nullable := fun _ _ _ _ => rfl
  single := fun _ => rfl

/-- The put of one item, whose identity is a text. -/
theorem workUpdate_addressed : ∃ command mutation,
    workCompiler.put workLayout (workUpdate (.string "x")) workOperation = .ok command ∧
      workCompiler.putMutation workLayout workOperation (workUpdate (.string "x")) =
        .ok mutation ∧
      ∀ table after returned, Keyed workKey table → comparingServer.unique table = true →
        comparingServer.perform workKey mutation table = .completed after returned →
          Addressed comparingServer workLayout workScope (workData (.string "x")) table after
            returned := by
  have settled : workCompiler.settings.check = .ok () := by decide
  have resource : workLayout ∈ workCompiler.settings.resources := List.mem_singleton.mpr rfl
  have compiled : ∃ command, workCompiler.put workLayout (workUpdate (.string "x"))
      workOperation = .ok command := ⟨_, rfl⟩
  obtain ⟨command, compiled⟩ := compiled
  have dataOk : Json.get (workUpdate (.string "x")) "data" =
      some (.object (workData (.string "x"))) := rfl
  have distinct : (Json.names (workData (.string "x"))).Nodup := by decide
  have scopeOk : workCompiler.scopeValues workOperation = .ok workScope := rfl
  have documented : dollarReader.DocumentedIdentity workLayout (workData (.string "x")) := by
    decide
  obtain ⟨mutation, mutationOk, _, addressed⟩ := put_addressed_iff settled resource rfl
    (comparingServer_lawful workLayout) (dollarFilter_reads workLayout) dataOk distinct
    (fun _ => documented) scopeOk compiled
  refine ⟨command, mutation, compiled, mutationOk, addressed.mpr ?_⟩
  intro _ _ _
  right
  intro name listed stored passes
  cases List.mem_singleton.mp listed
  obtain ⟨field, value, found, given, each⟩ := passes
  cases found
  cases given
  obtain ⟨encoded, test, encodedOk, compares, holds⟩ := each _ (List.mem_singleton_self _)
  cases encodedOk
  cases compares
  exact ⟨_, _, _, rfl, rfl, rfl, rfl, jsonTest_string.mp holds⟩

/-- An item with another identity. -/
def workItem (identity : String) : Record Json where
  contents := fun column =>
    if column = "id" then .string identity else (workRecord "waiting" 1).contents column
  version := 1

/-- An object of operators as identity updates two items. -/
theorem workUpdate_two_rows : ∃ command mutation after returned,
    workCompiler.put workLayout (workUpdate (.object [("$gte", .string "x")])) workOperation =
        .ok command ∧
      workCompiler.putMutation workLayout workOperation
        (workUpdate (.object [("$gte", .string "x")])) = .ok mutation ∧
      command.statement = mutation.statement workCompiler workLayout ∧
      Keyed workKey [workItem "x", workItem "y"] ∧
      comparingServer.perform workKey mutation [workItem "x", workItem "y"] =
        .completed after returned ∧
      returned.length = 2 ∧ ¬ Addressed comparingServer workLayout workScope
        (workData (.object [("$gte", .string "x")])) [workItem "x", workItem "y"] after
          returned := by
  refine ⟨_, _, _, _, rfl, rfl, rfl, ?_, rfl, rfl, ?_⟩
  · unfold Keyed
    decide
  · exact fun addressed => absurd addressed.atMostOne (Nat.not_succ_le_self 1)

end MeridianPostgreSQL.Query
