import MeridianPostgreSQL.Query.PutModes

/-! # Versioned puts

A put that names the version it replaces: what it is to do, and when the
compiler makes a statement that does it. -/

namespace MeridianPostgreSQL.Query

open Settings
open VersionedRecords

/-! ## Specification -/

/-- The record with some columns of a given one, at its next version. -/
def succeeded {Value : Type} (columns : List String) (given old : Record Value) :
    Record Value :=
  ⟨takenContents columns given old, old.version + 1⟩

/-- A put over the record of its key if that has the expected version. -/
def specifiedVersionedPut {Value : Type} [DecidableEq Value] (unique : Table Value → Bool)
    (versionIs : Int → Bool) (keys supplied : List String) (given : Record Value)
    (table : Table Value) : PutOutcome Value :=
  match recordAt keys table (recordKey keys given) with
  | none => .conflict
  | some old =>
      if versionIs old.version then
        concluded unique (table.map fun record =>
            if recordKey keys record = recordKey keys given then succeeded supplied given record
            else record)
          (succeeded supplied given old)
      else .conflict

theorem specifiedVersionedPut_ne_refused {Value : Type} [DecidableEq Value]
    {unique : Table Value → Bool} {versionIs : Int → Bool} {keys supplied : List String}
    {given : Record Value} {table : Table Value} :
    specifiedVersionedPut unique versionIs keys supplied given table ≠ .refused := by
  unfold specifiedVersionedPut concluded
  split
  · exact nofun
  · split
    · split
      · exact nofun
      · exact nofun
    · exact nofun

theorem specifiedVersionedPut_found {Value : Type} [DecidableEq Value]
    {unique : Table Value → Bool} {versionIs : Int → Bool} (keys supplied : List String)
    (given : Record Value) {version : Int} (named : versionIs version = true)
    (single : ∀ record, unique [record] = true) : ∃ record after,
      specifiedVersionedPut unique versionIs keys supplied given [⟨given.contents, version⟩] =
        .returned record after := by
  have found : recordAt keys [⟨given.contents, version⟩] (recordKey keys given) =
      some ⟨given.contents, version⟩ := List.find?_cons_of_pos (decide_eq_true rfl)
  unfold specifiedVersionedPut
  rw [found]
  simp only [named, if_true, concluded, List.map_cons, List.map_nil, single]
  exact ⟨_, _, rfl⟩

/-- The columns of the mutable fields that are supplied. -/
def suppliedColumns (layout : ResourceLayout) (data : Json.Object) : List String :=
  ((DMLCompiler.mutableFields layout).filter fun field =>
    (Json.get data field.name).isSome).map fun field => field.column.text

/-- Nothing is supplied that must not change. -/
def OnlyMutable (layout : ResourceLayout) (data : Json.Object) : Prop :=
  ∀ field ∈ layout.fields, (Json.get data field.name).isSome → field.name ∉ layout.identity →
    field.mutable = true

/-! ## Changes -/

section Changes

variable {layout : ResourceLayout} {data : Json.Object}

def changedData (layout : ResourceLayout) (data : Json.Object) : Json.Object :=
  data.filter fun entry => entry.1 ∉ layout.identity

theorem get_filter (keep : String → Bool) (members : Json.Object) (name : String) :
    Json.get (members.filter fun entry => keep entry.1) name =
      if keep name then Json.get members name else none := by
  unfold Json.get
  induction members with
  | nil => simp
  | cons entry rest induction =>
      rw [List.filter_cons, List.lookup_cons]
      by_cases same : name = entry.1
      · subst same
        by_cases kept : keep entry.1 = true
        · rw [if_pos kept, if_pos kept, List.lookup_cons]
          simp
        · rw [if_neg kept, induction, if_neg kept, if_neg kept]
      · have different : (name == entry.1) = false := by simpa using same
        rw [different]
        by_cases kept : keep entry.1 = true
        · rw [if_pos kept, List.lookup_cons, different]
          exact induction
        · rw [if_neg kept]
          exact induction

theorem get_changed (name : String) : Json.get (changedData layout data) name =
    if name ∈ layout.identity then none else Json.get data name := by
  have filtered := get_filter (fun name => decide (name ∉ layout.identity)) data name
  unfold changedData
  rw [filtered]
  by_cases listed : name ∈ layout.identity
  · simp [listed]
  · simp [listed]

variable {compiler : DMLCompiler}

theorem checkEndpoint_changed {name : String} {allowed : List String}
    (checked : compiler.checkEndpoint data name allowed = .ok ()) :
    compiler.checkEndpoint (changedData layout data) name allowed = .ok () := by
  unfold DMLCompiler.checkEndpoint at checked ⊢
  rw [get_changed]
  by_cases listed : name ∈ layout.identity
  · rw [if_pos listed]
  · rw [if_neg listed]
    exact checked

theorem validateRelationValues_changed
    (checked : compiler.validateRelationValues layout data = .ok ()) :
    compiler.validateRelationValues layout (changedData layout data) = .ok () := by
  unfold DMLCompiler.validateRelationValues at checked ⊢
  cases related : layout.relation with
  | none => rfl
  | some relation =>
      rw [related] at checked
      obtain ⟨_, source, target⟩ := bind_eq_ok checked
      have sourceOk := @checkEndpoint_changed layout data compiler _ _ source
      dsimp only
      rw [sourceOk]
      exact @checkEndpoint_changed layout data compiler _ _ target

theorem fieldValues_changed {values : List (String × DMLStatement)}
    (compiled : fieldValues layout data = .ok values) :
    ∃ changes, fieldValues layout (changedData layout data) = .ok changes ∧
      ∀ change ∈ changes, change ∈ values := by
  have each : ∀ entry ∈ changedData layout data, ∃ change, (do
      let field ← namedField layout entry.1
      let value ← fieldValue field entry.2
      .ok (field.column.text, value) : Compiled (String × DMLStatement)) = .ok change ∧
        change ∈ values := by
    intro entry listed
    obtain ⟨change, inside, made⟩ := mapM_result compiled (List.mem_filter.mp listed).1
    exact ⟨change, made, inside⟩
  obtain ⟨changes, changesOk⟩ := mapM_exists fun entry listed =>
    let ⟨change, made, _⟩ := each entry listed
    ⟨change, made⟩
  refine ⟨changes, changesOk, ?_⟩
  apply forall_of_mapM (fun change => change ∈ values) changesOk
  intro entry change listed made
  obtain ⟨other, otherOk, inside⟩ := each entry listed
  cases made.symm.trans otherOk
  exact inside

theorem mem_changed_names {name : String} : name ∈ Json.names (changedData layout data) ↔
    name ∉ layout.identity ∧ name ∈ Json.names data := by
  unfold Json.names changedData
  simp only [List.mem_map, List.mem_filter, decide_eq_true_eq]
  constructor
  · rintro ⟨entry, ⟨listed, free⟩, rfl⟩
    exact ⟨free, entry, listed, rfl⟩
  · rintro ⟨free, entry, listed, rfl⟩
    exact ⟨entry, ⟨listed, free⟩, rfl⟩

theorem get_isSome {name : String} :
    (Json.get data name).isSome = true ↔ name ∈ Json.names data := by
  constructor
  · intro found
    obtain ⟨value, given⟩ := Option.isSome_iff_exists.mp found
    exact List.mem_map_of_mem (Json.mem_of_get given)
  · intro listed
    cases found : Json.get data name with
    | some value => rfl
    | none => exact absurd listed (Json.not_mem_names found)

theorem checkFields_known {operation : String}
    (checked : DMLCompiler.checkFields operation layout data = .ok ()) {name : String}
    (listed : name ∈ Json.names data) : name ∈ layout.fieldNames := by
  unfold DMLCompiler.checkFields at checked
  dsimp only at checked
  split at checked
  · exact nomatch checked
  · rename_i accepted
    by_contra unknown
    apply accepted
    left
    exact List.ne_nil_of_mem (List.mem_filter.mpr ⟨listed, by simpa using unknown⟩)

/-- The changes that `_assignments` finds immutable. -/
def immutableNames (layout : ResourceLayout) (changes : Json.Object) : List String :=
  (Json.names changes).filter fun name =>
    name ∈ layout.identity ∨ (layout.field name).any fun field => !field.mutable

theorem immutableNames_changed (valid : layout.check = .ok ()) (held : layout.isRegistry = false) :
    immutableNames layout (changedData layout data) = [] ↔ OnlyMutable layout data := by
  unfold immutableNames
  rw [List.filter_eq_nil_iff]
  constructor
  · intro none field listed supplied free
    have allowed := none field.name (mem_changed_names.mpr ⟨free, get_isSome.mp supplied⟩)
    simpa [field_of_mem valid held listed, free] using allowed
  · intro only name listed
    obtain ⟨free, given⟩ := mem_changed_names.mp listed
    cases found : layout.field name with
    | none => simp [free]
    | some field =>
        obtain ⟨inside, rfl⟩ := field_found found
        simp [free, only field inside (get_isSome.mpr given) free]

end Changes

section Versions

variable {Value : Type} {server : PutServer Value} {compiler : DMLCompiler}
  {layout : ResourceLayout} {context : OperationContext} {input data : Json.Object}
  {mode : PutMode} {expected : Json} {scope : List (String × String)}
  {values : List (String × DMLStatement)} (valid : layout.check = .ok ())
  (held : layout.isRegistry = false)

include valid held

/-- The assignments of a versioned put. -/
theorem assignedValues_ok
    (submitted : Submission server compiler layout context input mode (some expected) data scope
      values) {field : FieldLayout} (listed : field ∈ DMLCompiler.mutableFields layout)
    (supplied : (Json.get data field.name).isSome) (only : OnlyMutable layout data) :
    ∃ changes, compiler.assignedValues layout (changedData layout data) = .ok changes ∧
      fieldValues layout (changedData layout data) = .ok changes ∧
      ∀ change ∈ changes, change ∈ values := by
  obtain ⟨changes, changesOk, inside⟩ := @fieldValues_changed layout data values submitted.valuesOk
  refine ⟨changes, ?_, changesOk, inside⟩
  have some : changedData layout data ≠ [] := by
    intro empty
    have named := mem_changed_names.mpr ⟨(mem_mutableFields.mp listed).2.2, get_isSome.mp supplied⟩
    rw [empty] at named
    exact nomatch named
  have known : ((Json.names (changedData layout data)).filter fun name =>
      name ∉ layout.fieldNames) = [] := by
    rw [List.filter_eq_nil_iff]
    intro name listed
    simpa using checkFields_known submitted.checked (mem_changed_names.mp listed).2
  have mutable := (immutableNames_changed valid held).mpr only
  unfold immutableNames at mutable
  unfold DMLCompiler.assignedValues
  dsimp only
  rw [if_neg some, known, mutable, if_neg (by simp),
    validateRelationValues_changed submitted.relations]
  exact changesOk

/-- A versioned put with an immutable field is refused. -/
theorem assignedValues_refused (supplied : ¬ OnlyMutable layout data)
    (changes : List (String × DMLStatement)) :
    compiler.assignedValues layout (changedData layout data) ≠ .ok changes := by
  intro accepted
  unfold DMLCompiler.assignedValues at accepted
  dsimp only at accepted
  split at accepted
  · exact nomatch accepted
  · split at accepted
    · exact nomatch accepted
    · rename_i mutable
      simp only [not_or, not_not] at mutable
      exact supplied ((immutableNames_changed valid held).mp mutable.2)

omit held in
theorem suppliedColumns_iff (only : OnlyMutable layout data) {field : FieldLayout}
    (listed : field ∈ layout.fields) : field.column.text ∈ suppliedColumns layout data ↔
      field.name ∉ layout.identity ∧ (Json.get data field.name).isSome := by
  unfold suppliedColumns
  rw [List.mem_map]
  constructor
  · rintro ⟨other, inside, same⟩
    obtain ⟨member, supplied⟩ := List.mem_filter.mp inside
    obtain ⟨present, _, free⟩ := mem_mutableFields.mp member
    have equal := List.inj_on_of_nodup_map (columns_nodup valid) present listed (Identifier.ext same)
    subst equal
    exact ⟨free, supplied⟩
  · rintro ⟨free, supplied⟩
    have changes := only field listed supplied free
    exact ⟨field, List.mem_filter.mpr ⟨mem_mutableFields.mpr ⟨listed, changes, free⟩, supplied⟩, rfl⟩

/-- An advanced record takes exactly what is supplied. -/
theorem advanced_eq (only : OnlyMutable layout data)
    (scopeOk : compiler.scopeValues context = .ok scope)
    {changes : List (String × DMLStatement)}
    (valuesOk : fieldValues layout data = .ok values)
    (compiled : fieldValues layout (changedData layout data) = .ok changes)
    (record : Record Value) :
    advanced server.toEngine changes record =
      succeeded (suppliedColumns layout data)
        (givenRecord server.toEngine layout scope data) record := by
  unfold advanced succeeded
  congr 1
  funext column
  rw [assignedContents, fieldValues_lookup valid held compiled, suppliedValue, takenContents]
  cases found : layout.fields.find? fun field => field.column.text = column with
  | none =>
      have absent : column ∉ suppliedColumns layout data := by
        intro inside
        obtain ⟨field, member, same⟩ := List.mem_map.mp inside
        have missing := List.find?_eq_none.mp found field
          (mem_mutableFields.mp (List.mem_filter.mp member).1).1
        simp [same] at missing
      rw [if_neg absent]
      rfl
  | some field =>
      have listed := List.mem_of_find?_eq_some found
      have same := List.find?_some found
      simp only [decide_eq_true_eq] at same
      subst same
      have columns := suppliedColumns_iff valid only listed
      have contents := @given_contents layout data Value compiler context scope server.toEngine
        valid scopeOk field listed
      simp only [Option.bind_eq_bind, Option.bind_some, get_changed, columns, contents]
      by_cases identity : field.name ∈ layout.identity
      · simp [identity]
      · cases given : Json.get data field.name with
        | none => simp [identity]
        | some value =>
            obtain ⟨statement, statementOk, _⟩ :=
              supplied_statement valuesOk (field_of_mem valid held listed) given
            simp [identity, statementOk, Except.toOption]

/-- The statement of a versioned put. -/
theorem versioned_runs [DecidableEq Value] {table : Table Value}
    (submitted : Submission server compiler layout context input mode (some expected) data scope
      values) {changes : List (String × DMLStatement)}
    (assigned : compiler.assignedValues layout (changedData layout data) = .ok changes)
    {condition : DMLStatement}
    (conditionOk : compiler.condition layout (DMLCompiler.identityValues layout data) context "t" =
      .ok condition) :
    runPut server compiler layout context input table =
      (server.perform (primaryKey compiler.settings layout)
        (.update changes condition (some expected)) table).outcome true := by
  have complete : (DMLCompiler.identityValues layout data).length = layout.identity.length := by
    apply List.filterMap_length_eq_length.mpr
    intro name listed
    obtain ⟨_, value, _, _, given, _⟩ :=
      identity_supplied valid held submitted.checked submitted.valuesOk listed
    rw [given]
    rfl
  have put : compiler.conditionalPutMutation layout context data expected =
      .ok (.update changes condition (some expected)) := by
    unfold DMLCompiler.conditionalPutMutation
    dsimp only
    rw [if_neg (not_not.mpr complete)]
    unfold changedData at assigned
    rw [assigned, conditionOk]
    rfl
  unfold runPut
  rw [putMutation_eq submitted, isConditional_eq submitted]
  simp only [DMLCompiler.recordMutation, submitted.scopeOk, submitted.valuesOk, bind,
    Except.bind, put]
  rfl

/-- What cannot be assigned is refused. -/
theorem versioned_refused [DecidableEq Value] {table : Table Value}
    (submitted : Submission server compiler layout context input mode (some expected) data scope
      values) (supplied : ¬ OnlyMutable layout data) :
    runPut server compiler layout context input table = .refused := by
  have put : ∀ mutation, compiler.conditionalPutMutation layout context data expected ≠
      .ok mutation := by
    intro mutation accepted
    unfold DMLCompiler.conditionalPutMutation at accepted
    dsimp only at accepted
    split at accepted
    · exact nomatch accepted
    · obtain ⟨changes, changesOk, _⟩ := bind_eq_ok accepted
      exact assignedValues_refused valid held supplied changes changesOk
  unfold runPut
  rw [putMutation_eq submitted]
  simp only [DMLCompiler.recordMutation, submitted.scopeOk, submitted.valuesOk, bind,
    Except.bind]
  cases refused : compiler.conditionalPutMutation layout context data expected with
  | error error => rfl
  | ok mutation => exact absurd refused (put mutation)

variable [DecidableEq Value] (laws : server.Lawful layout)

include laws

/-- Where nothing stands in its way, a versioned put is as specified. -/
theorem versioned_specified (distinct : compiler.settings.scopeKeys.Nodup)
    (reads : ReadsScalars layout compiler.parseFilter)
    (submitted : Submission server compiler layout context input mode (some expected) data scope
      values) {field : FieldLayout} (listed : field ∈ DMLCompiler.mutableFields layout)
    (supplied : (Json.get data field.name).isSome) (only : OnlyMutable layout data)
    (located : Located server layout data) (readable : server.readsVersion expected = true)
    {table : Table Value} (keyed : Keyed (primaryKey compiler.settings layout) table)
    (unique : server.unique table = true) :
    runPut server compiler layout context input table =
      specifiedVersionedPut server.unique (server.versionIs expected)
        (primaryKey compiler.settings layout) (suppliedColumns layout data)
        (givenRecord server.toEngine layout scope data) table := by
  obtain ⟨compared, condition, present, columns, located_iff⟩ :=
    identity_compared laws reads valid held submitted
  have read := located_iff.mp located
  obtain ⟨changes, assigned, changesOk, inside⟩ :=
    assignedValues_ok valid held submitted listed supplied only
  have accepted : server.refuses (identityCondition "t" scope compared) = false := by
    rw [laws.refuses, List.any_eq_false]
    intro equality listed
    simp [read equality listed]
  have stored : server.stores changes = true := by
    have all := submitted.stored
    rw [inserted_values submitted.scopeOk, PutServer.stores, List.all_append,
      Bool.and_eq_true, List.all_eq_true, List.all_eq_true] at all
    exact List.all_eq_true.mpr fun change member => all.2 change (inside change member)
  have finds := identity_holds laws distinct submitted.scopeOk present columns read
  have performed : server.perform (primaryKey compiler.settings layout)
      (.update changes (identityCondition "t" scope compared) (some expected)) table =
      changeRow server (primaryKey compiler.settings layout)
        (recordKey (primaryKey compiler.settings layout)
          (givenRecord server.toEngine layout scope data))
        (fun record => server.versionIs expected record.version)
        (succeeded (suppliedColumns layout data)
          (givenRecord server.toEngine layout scope data)) table := by
    have chosen : required server.toEngine (identityCondition "t" scope compared) (some expected) =
        fun record => decide (recordKey (primaryKey compiler.settings layout) record =
            recordKey (primaryKey compiler.settings layout)
              (givenRecord server.toEngine layout scope data) ∧
          server.versionIs expected record.version = true) := by
      funext record
      rw [Bool.eq_iff_iff, required, Bool.and_eq_true, finds record]
      simp
    have change : advanced server.toEngine changes =
        succeeded (suppliedColumns layout data)
          (givenRecord server.toEngine layout scope data) :=
      funext (advanced_eq valid held only submitted.scopeOk submitted.valuesOk changesOk)
    simp only [PutServer.perform, accepted, stored, changeRow, chosen, change, Option.all_some,
      readable]
    rw [if_neg (by simp)]
    simp only [decide_eq_true_eq]
  rw [versioned_runs valid held submitted assigned condition, performed,
    changeRow_outcome keyed unique]
  unfold specifiedVersionedPut
  cases recordAt (primaryKey compiler.settings layout) table _ with
  | none => rfl
  | some old =>
      cases known : server.versionIs expected old.version with
      | true => simp only [Option.filter_some, known, if_true]
      | false => simp only [Option.filter_some, known, Bool.false_eq_true, if_false]

/-- A put that cannot read its identity does not return the record that has
the expected version, and one that cannot read its version is refused. -/
theorem versioned_misses (reads : ReadsScalars layout compiler.parseFilter)
    (submitted : Submission server compiler layout context input mode (some expected) data scope
      values) {field : FieldLayout} (listed : field ∈ DMLCompiler.mutableFields layout)
    (supplied : (Json.get data field.name).isSome) (only : OnlyMutable layout data) :
    (server.readsVersion expected = false → ∀ table,
      runPut server compiler layout context input table = .refused) ∧
    (¬ Located server layout data → ∀ version record after,
      runPut server compiler layout context input
          [⟨(givenRecord server.toEngine layout scope data).contents, version⟩] ≠
        .returned record after) := by
  obtain ⟨compared, condition, present, _, readable⟩ :=
    identity_compared laws reads valid held submitted
  obtain ⟨changes, assigned, _⟩ := assignedValues_ok valid held submitted listed supplied only
  constructor
  · intro unreadable table
    rw [versioned_runs valid held submitted assigned condition]
    simp only [PutServer.perform, Option.all_some, unreadable]
    rw [if_pos (by simp)]
    rfl
  · intro unlocated version record after
    have misses : server.holds (identityCondition "t" scope compared)
        ⟨(givenRecord server.toEngine layout scope data).contents, version⟩ = false := by
      rw [Bool.eq_false_iff]
      intro found
      exact unlocated (readable.mpr ((laws.holds _ _ _ _ present).mp found).2)
    rw [versioned_runs valid held submitted assigned condition]
    simp only [PutServer.perform, required, misses, Bool.false_and, List.map_cons, List.map_nil,
      List.filter_cons, List.filter_nil, PutServer.settle, laws.single]
    split
    · rintro ⟨⟩
    · rintro ⟨⟩

end Versions

/-- A put with an expected version does what is specified, whatever the table
holds, exactly when it supplies no immutable field beside the identity, and
its identity and its version can be read. -/
theorem versioned_put_iff {Value : Type} [DecidableEq Value] {server : PutServer Value}
    {compiler : DMLCompiler} {layout : ResourceLayout} {context : OperationContext}
    {input data : Json.Object} {mode : PutMode} {expected : Json}
    {scope : List (String × String)} {values : List (String × DMLStatement)}
    (settled : compiler.settings.check = .ok ())
    (resource : layout ∈ compiler.settings.resources) (held : layout.isRegistry = false)
    (laws : server.Lawful layout)
    (versions : server.readsVersion expected = true →
      ∃ version, server.versionIs expected version = true)
    (reads : ReadsScalars layout compiler.parseFilter)
    (submitted : Submission server compiler layout context input mode (some expected) data scope
      values) {field : FieldLayout} (listed : field ∈ DMLCompiler.mutableFields layout)
    (supplied : (Json.get data field.name).isSome) :
    (∀ table, Keyed (primaryKey compiler.settings layout) table → server.unique table = true →
      runPut server compiler layout context input table =
        specifiedVersionedPut server.unique (server.versionIs expected)
          (primaryKey compiler.settings layout) (suppliedColumns layout data)
          (givenRecord server.toEngine layout scope data) table) ↔
      OnlyMutable layout data ∧ Located server layout data ∧
        server.readsVersion expected = true := by
  have sound := settings_checked settled
  have valid := sound.layouts layout resource
  constructor
  · intro specified
    have row := fun version : Int =>
      specified [⟨(givenRecord server.toEngine layout scope data).contents, version⟩]
        (List.nodup_singleton _) (laws.single _)
    have only : OnlyMutable layout data := by
      by_contra immutable
      have refused := (versioned_refused valid held submitted immutable).symm.trans (row 0)
      exact specifiedVersionedPut_ne_refused refused.symm
    have misses := versioned_misses valid held laws reads submitted listed supplied only
    have readable : server.readsVersion expected = true := by
      by_contra unreadable
      have refused := (misses.1 (eq_false_of_ne_true unreadable) _).symm.trans (row 0)
      exact specifiedVersionedPut_ne_refused refused.symm
    refine ⟨only, ?_, readable⟩
    by_contra unlocated
    obtain ⟨version, named⟩ := versions readable
    obtain ⟨record, after, returned⟩ := specifiedVersionedPut_found
      (primaryKey compiler.settings layout) (suppliedColumns layout data)
      (givenRecord server.toEngine layout scope data) named laws.single
    exact misses.2 unlocated version _ _ ((row version).trans returned)
  · rintro ⟨only, located, readable⟩ table keyed unique
    exact versioned_specified valid held laws sound.scopeKeys reads submitted listed supplied only
      located readable keyed unique

/-! ## Examples -/

def versionedPut (data : Json.Object) (version : Int) : Json.Object :=
  [("mode", .string "update"), ("expectedVersion", .int version), ("data", .object data)]

theorem workVersioned_submitted : ∃ values,
    Submission plainServer workCompiler workLayout workOperation
      (versionedPut (workData (.string "x")) 3) .update (some (.int 3)) (workData (.string "x"))
      workScope values :=
  ⟨_, rfl, rfl, rfl, rfl, rfl, rfl, rfl, rfl, by
    intro name listed value given
    cases List.mem_singleton.mp listed
    cases given
    rfl⟩

theorem workData_mutable : OnlyMutable workLayout (workData (.string "x")) := by
  intro field listed _ free
  rcases listed with _ | ⟨_, _ | ⟨_, _ | ⟨_, _ | ⟨_, none⟩⟩⟩⟩
  · exact absurd (List.mem_singleton.mpr rfl) free
  · rfl
  · rfl
  · rfl
  · exact nomatch none

/-- A put of an item in the version that is there. -/
theorem work_versioned_put :
    runPut plainServer workCompiler workLayout workOperation
        (versionedPut (workData (.string "x")) 3) [workRecord "waiting" 3] =
      specifiedVersionedPut plainServer.unique (plainServer.versionIs (.int 3))
        (primaryKey workSettings workLayout) (suppliedColumns workLayout (workData (.string "x")))
        (givenRecord plainServer.toEngine workLayout workScope (workData (.string "x")))
        [workRecord "waiting" 3] := by
  obtain ⟨values, submitted⟩ := workVersioned_submitted
  have settled : workCompiler.settings.check = .ok () := by decide
  have resource : workLayout ∈ workCompiler.settings.resources := List.mem_singleton.mpr rfl
  have listed : (⟨"state", ⟨"state", isIdentifier_state⟩, .string, false, true, .one, none, none⟩ :
      FieldLayout) ∈ DMLCompiler.mutableFields workLayout := by decide
  exact (versioned_put_iff settled resource rfl (plainServer_lawful workLayout)
    (fun _ => ⟨3, rfl⟩) (dollarFilter_scalars workLayout) submitted listed rfl).mpr
    ⟨workData_mutable, workUpdate_located, rfl⟩ _ (workRecord_keyed "waiting" 3) rfl

/-- A layout with a required field that is set once. -/
def ticketLayout : ResourceLayout where
  ref := ⟨"structured", "example", "ticket"⟩
  table := ⟨"tickets", by decide⟩
  profile := "key-value"
  schemaFingerprint := "ticket-schema-v1"
  resourceFingerprint := "ticket-resource-v1"
  fields := [
    ⟨"id", ⟨"id", isIdentifier_id⟩, .uuid, false, false, .one, none, none⟩,
    ⟨"kind", ⟨"kind", by decide⟩, .string, false, false, .one, none, none⟩,
    ⟨"state", ⟨"state", isIdentifier_state⟩, .string, false, true, .one, none, none⟩]
  identity := ["id"]
  indexes := []
  relation := none

def ticketCompiler : DMLCompiler where
  settings := ⟨⟨"meridian_test", isIdentifier_meridianTest⟩,
    [⟨"workspace", isIdentifier_workspace⟩], [ticketLayout], false⟩
  parseFilter := fun filter => .ok (some (dollarFilter filter))
  collectionRef := fun _ => .error (.type "a record reference is required")

def ticketData (state : String) : Json.Object :=
  [("id", .string "x"), ("kind", .string "bug"), ("state", .string state)]

def ticketCreate : Json.Object :=
  [("mode", .string "if_absent"), ("data", .object (ticketData "open"))]

/-- A ticket that is created cannot be put in its version: with its required
field the put is refused as immutable, without it as incomplete. -/
theorem required_field_refused : ticketCompiler.settings.check = .ok () ∧ ∃ record next,
    runPut plainServer ticketCompiler ticketLayout workOperation ticketCreate [] =
      .returned (some record) [record] ∧
    runPut plainServer ticketCompiler ticketLayout workOperation
      (versionedPut (ticketData "done") 1) [record] = .refused ∧
    runPut plainServer ticketCompiler ticketLayout workOperation
      (versionedPut [("id", .string "x"), ("state", .string "done")] 1) [record] = .refused ∧
    specifiedVersionedPut plainServer.unique (plainServer.versionIs (.int 1))
        (primaryKey ticketCompiler.settings ticketLayout)
        (suppliedColumns ticketLayout (ticketData "done"))
        (givenRecord plainServer.toEngine ticketLayout workScope (ticketData "done")) [record] =
      .returned (some next) [next] ∧ next.version = 2 ∧
    next.contents "state" = .string "done" :=
  ⟨by decide, _, _, rfl, rfl, rfl, rfl, rfl, rfl⟩

end MeridianPostgreSQL.Query
