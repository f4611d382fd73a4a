import MeridianPostgreSQL.Query.Filters
import MeridianPostgreSQL.Query.Records

/-! # Record versions

Every statement that changes a record advances its version, except an import
that meets a record with other contents. -/

namespace MeridianPostgreSQL.Query

open Settings
open VersionedRecords

/-! ## The primary key -/

/-- The primary key of a resource table. -/
def primaryKey (settings : PostgreSQLSettings) (layout : ResourceLayout) : List String :=
  settings.scopeColumns ++ layout.identity.map (columnOf layout)

section Keys

variable {compiler : DMLCompiler} {layout : ResourceLayout}

theorem columnOf_found {name : String} {field : FieldLayout}
    (found : layout.field name = some field) : columnOf layout name = field.column.text := by
  simp [columnOf, found]

theorem namedField_found {name : String} {field : FieldLayout}
    (named : namedField layout name = .ok field) : layout.field name = some field := by
  unfold namedField at named
  split at named
  · cases named
    assumption
  · cases named

theorem keyColumns_eq {keys : List String} (named : compiler.keyColumns layout = .ok keys) :
    keys = primaryKey compiler.settings layout := by
  rcases bind_eq_ok named with ⟨fields, fieldsOk, named⟩
  cases named
  have columns : fields.map (fun field => field.column.text) =
      layout.identity.map (columnOf layout) := by
    have mapped := mapM_eq_ok fieldsOk
    clear fieldsOk named
    generalize layout.identity = names at mapped
    induction mapped with
    | nil => rfl
    | cons head _ induction =>
        rw [List.map_cons, List.map_cons, columnOf_found (namedField_found head),
          induction]
  rw [primaryKey, columns]

/-- A field that is not part of the identity is stored outside the key. -/
theorem column_not_key (valid : layout.check = .ok ()) {field : FieldLayout}
    (listed : field ∈ layout.fields) (free : field.name ∉ layout.identity)
    (settings : PostgreSQLSettings) : field.column.text ∉ primaryKey settings layout := by
  intro inside
  rcases List.mem_append.mp inside with owned | identity
  · exact column_not_scope valid listed settings owned
  · rcases List.mem_map.mp identity with ⟨name, member, same⟩
    cases found : layout.field name with
    | none =>
        have empty : field.column.text = "" := by rw [← same]; simp [columnOf, found]
        have isName := field.column.valid
        rw [empty] at isName
        cases isName
    | some other =>
        rcases field_found found with ⟨otherListed, named⟩
        have columns : other.column = field.column :=
          Identifier.ext (by rw [← same, columnOf_found found])
        have fields := List.inj_on_of_nodup_map (columns_nodup valid) otherListed listed columns
        exact free (by rw [← fields, named]; exact member)

end Keys

/-! ## What is emitted -/

/-- The mutations of the write paths. -/
inductive Emits (compiler : DMLCompiler) (layout : ResourceLayout) : Mutation → Prop
  | append {data context mutation}
      (compiled : compiler.appendMutation layout context data = .ok mutation) :
      Emits compiler layout mutation
  | put {input context mutation}
      (compiled : compiler.putMutation layout context input = .ok mutation) :
      Emits compiler layout mutation
  | patch {input context mutation}
      (compiled : compiler.patchMutation layout context input = .ok mutation) :
      Emits compiler layout mutation
  | delete {input context mutation}
      (compiled : compiler.deleteMutation layout context input = .ok mutation) :
      Emits compiler layout mutation
  | claim {filter changes limit context mutation}
      (compiled : compiler.claimMutation layout context filter changes limit = .ok mutation) :
      Emits compiler layout mutation
  | importRow {scope values mutation}
      (compiled : compiler.importMutation layout scope values = .ok mutation) :
      Emits compiler layout mutation

/-- Columns outside the primary key. -/
def OutsideKey (settings : PostgreSQLSettings) (layout : ResourceLayout)
    (columns : List String) : Prop :=
  ∀ column ∈ columns, column ∉ primaryKey settings layout

/-- What the emitted mutations change: never the key, by which their rows are
found. -/
def Mutation.Sound (settings : PostgreSQLSettings) (layout : ResourceLayout) : Mutation → Prop
  | .insert _ _ upsert => ∀ keys taken, upsert = some (keys, taken) →
      keys = primaryKey settings layout ∧ OutsideKey settings layout taken
  | .update assignments _ _ => OutsideKey settings layout (assignments.map Prod.fst)
  | .replace assignments _ => OutsideKey settings layout (assignments.map Prod.fst)
  | .delete _ _ => True
  | .claim assignments keys _ _ => keys = primaryKey settings layout ∧
      OutsideKey settings layout (assignments.map Prod.fst)
  | .importRow _ _ keys taken _ => keys = primaryKey settings layout ∧
      OutsideKey settings layout taken

section Emitted

variable {compiler : DMLCompiler} {layout : ResourceLayout} {context : OperationContext}
  {mutation : Mutation} (valid : layout.check = .ok ())

include valid

theorem mutableColumns_outside :
    OutsideKey compiler.settings layout (DMLCompiler.mutableColumns layout) := by
  intro column listed
  rcases List.mem_map.mp listed with ⟨field, member, rfl⟩
  rcases List.mem_filter.mp member with ⟨inside, free⟩
  simp only [decide_eq_true_eq] at free
  exact column_not_key valid inside free.2 compiler.settings

theorem fieldValues_outside {data : Json.Object} {values : List (String × DMLStatement)}
    (free : ∀ entry ∈ data, entry.1 ∉ layout.identity)
    (compiled : fieldValues layout data = .ok values) :
    OutsideKey compiler.settings layout (values.map Prod.fst) := by
  intro column listed
  rcases List.mem_map.mp listed with ⟨value, member, rfl⟩
  apply forall_of_mapM
    (fun value : String × DMLStatement => value.1 ∉ primaryKey compiler.settings layout)
    compiled _ value member
  intro entry value inside compiled
  rcases bind_eq_ok compiled with ⟨field, fieldOk, compiled⟩
  rcases bind_eq_ok compiled with ⟨statement, _, compiled⟩
  cases compiled
  rcases field_found (namedField_found fieldOk) with ⟨present, named⟩
  exact column_not_key valid present (by rw [named]; exact free entry inside) compiler.settings

theorem assignedValues_outside {changes : Json.Object} {values : List (String × DMLStatement)}
    (compiled : compiler.assignedValues layout changes = .ok values) :
    OutsideKey compiler.settings layout (values.map Prod.fst) := by
  unfold DMLCompiler.assignedValues at compiled
  dsimp only at compiled
  split at compiled
  · exact nomatch compiled
  · split at compiled
    · exact nomatch compiled
    · rename_i accepted
      rcases bind_eq_ok compiled with ⟨_, _, compiled⟩
      apply fieldValues_outside valid _ compiled
      intro entry inside identity
      apply accepted
      right
      intro none
      have listed : entry.1 ∈ (Json.names changes).filter fun name =>
          decide (name ∈ layout.identity ∨ (layout.field name).any fun field => !field.mutable) := by
        apply List.mem_filter.mpr
        exact ⟨List.mem_map_of_mem inside, by simp [identity]⟩
      rw [none] at listed
      exact nomatch listed

theorem replacedValues_outside {data : Json.Object} {values : List (String × DMLStatement)}
    (compiled : DMLCompiler.replacedValues layout data = .ok values) :
    OutsideKey compiler.settings layout (values.map Prod.fst) := by
  intro column listed
  rcases List.mem_map.mp listed with ⟨value, member, rfl⟩
  apply forall_of_mapM
    (fun value : String × DMLStatement => value.1 ∉ primaryKey compiler.settings layout)
    compiled _ value member
  intro field value inside compiled
  rcases bind_eq_ok compiled with ⟨statement, _, compiled⟩
  cases compiled
  exact mutableColumns_outside valid _ (List.mem_map_of_mem inside)

theorem recordMutation_sound {mode : PutMode} {expected : Option Json} {data : Json.Object}
    (compiled : compiler.recordMutation layout context mode expected data = .ok mutation) :
    mutation.Sound compiler.settings layout := by
  rcases bind_eq_ok compiled with ⟨scope, _, compiled⟩
  rcases bind_eq_ok compiled with ⟨values, _, compiled⟩
  cases expected with
  | some version =>
      unfold DMLCompiler.conditionalPutMutation at compiled
      dsimp only at compiled
      split at compiled
      · exact nomatch compiled
      · rcases bind_eq_ok compiled with ⟨changes, changesOk, compiled⟩
        rcases bind_eq_ok compiled with ⟨condition, _, compiled⟩
        cases compiled
        exact assignedValues_outside valid changesOk
  | none =>
      rcases bind_eq_ok compiled with ⟨keys, keysOk, compiled⟩
      cases mode with
      | update =>
          rcases bind_eq_ok compiled with ⟨changes, changesOk, compiled⟩
          rcases bind_eq_ok compiled with ⟨identity, _, compiled⟩
          rcases bind_eq_ok compiled with ⟨condition, _, compiled⟩
          cases compiled
          exact replacedValues_outside valid changesOk
      | upsert =>
          cases compiled
          intro targets taken same
          cases same
          exact ⟨keyColumns_eq keysOk, mutableColumns_outside valid⟩
      | ifAbsent =>
          cases compiled
          exact nofun

theorem Emits.sound (emits : Emits compiler layout mutation) :
    mutation.Sound compiler.settings layout := by
  cases emits with
  | append compiled =>
      unfold DMLCompiler.appendMutation at compiled
      split at compiled
      · rcases bind_eq_ok compiled with ⟨_, _, compiled⟩
        rcases bind_eq_ok compiled with ⟨scope, _, compiled⟩
        rcases bind_eq_ok compiled with ⟨values, _, compiled⟩
        cases compiled
        exact nofun
      · exact nomatch compiled
  | put compiled =>
      rcases bind_eq_ok compiled with ⟨mode, _, compiled⟩
      rcases bind_eq_ok compiled with ⟨expected, _, compiled⟩
      split at compiled
      · rcases bind_eq_ok compiled with ⟨_, _, compiled⟩
        rcases bind_eq_ok compiled with ⟨_, _, compiled⟩
        exact recordMutation_sound valid compiled
      · exact nomatch compiled
  | patch compiled =>
      unfold DMLCompiler.patchMutation at compiled
      split at compiled
      · rcases bind_eq_ok compiled with ⟨changes, changesOk, compiled⟩
        rcases bind_eq_ok compiled with ⟨condition, _, compiled⟩
        cases compiled
        exact assignedValues_outside valid changesOk
      · exact nomatch compiled
  | delete compiled =>
      unfold DMLCompiler.deleteMutation at compiled
      split at compiled
      · rcases bind_eq_ok compiled with ⟨condition, _, compiled⟩
        cases compiled
        trivial
      · exact nomatch compiled
  | claim compiled =>
      unfold DMLCompiler.claimMutation at compiled
      split at compiled
      · exact nomatch compiled
      · split at compiled
        · exact nomatch compiled
        · rcases bind_eq_ok compiled with ⟨condition, _, compiled⟩
          rcases bind_eq_ok compiled with ⟨changes, changesOk, compiled⟩
          rcases bind_eq_ok compiled with ⟨keys, keysOk, compiled⟩
          cases compiled
          exact ⟨keyColumns_eq keysOk, assignedValues_outside valid changesOk⟩
  | importRow compiled =>
      rcases bind_eq_ok compiled with ⟨_, _, compiled⟩
      rcases bind_eq_ok compiled with ⟨fields, _, compiled⟩
      rcases bind_eq_ok compiled with ⟨keys, keysOk, compiled⟩
      rcases bind_eq_ok compiled with ⟨first, _, compiled⟩
      cases compiled
      exact ⟨keyColumns_eq keysOk, mutableColumns_outside valid⟩

end Emitted

/-! ## Execution -/

/-- The row that an imported one meets, and that it would change. -/
def Mutation.Overwrites {Value : Type} (engine : Engine Value) (keys : List String)
    (table : Table Value) : Mutation → Prop
  | .importRow columns values _ taken _ => ∃ record ∈ table,
      recordKey keys record = recordKey keys (insertedRecord engine columns values) ∧
        ∃ column ∈ taken,
          (insertedRecord engine columns values).contents column ≠ record.contents column
  | _ => False

/-- The rows that a statement addresses. -/
def Mutation.Addresses {Value : Type} (engine : Engine Value) (keys : List String)
    (record : Record Value) : Mutation → Prop
  | .insert columns values _ =>
      recordKey keys record = recordKey keys (insertedRecord engine columns values)
  | .update _ condition expected => required engine condition expected record = true
  | .replace _ condition => engine.holds condition record = true
  | .delete condition expected => required engine condition expected record = true
  | .claim _ _ condition _ => engine.holds condition record = true
  | .importRow columns values _ _ _ =>
      recordKey keys record = recordKey keys (insertedRecord engine columns values)

section Execution

variable {Value : Type} {engine : Engine Value} {settings : PostgreSQLSettings}
  {layout : ResourceLayout}

theorem assignedContents_key {assignments : List (String × DMLStatement)}
    (outside : OutsideKey settings layout (assignments.map Prod.fst)) (record : Record Value) :
    recordKey (primaryKey settings layout) (advanced engine assignments record) =
      recordKey (primaryKey settings layout) record := by
  apply List.map_congr_left
  intro column inside
  have missing : assignments.lookup column = none := by
    rw [List.lookup_eq_none_iff]
    intro entry listed
    have different : column ≠ entry.1 := fun same =>
      outside entry.1 (List.mem_map_of_mem listed) (same ▸ inside)
    simpa using different
  simp [advanced, assignedContents, missing]

theorem takenContents_key {columns : List String} (outside : OutsideKey settings layout columns)
    (excluded record : Record Value) (version : Int) :
    recordKey (primaryKey settings layout) ⟨takenContents columns excluded record, version⟩ =
      recordKey (primaryKey settings layout) record := by
  apply List.map_congr_left
  intro column inside
  have absent : column ∉ columns := fun listed => outside column listed inside
  simp [takenContents, absent]

theorem upserted_key {columns : List String} (outside : OutsideKey settings layout columns)
    (excluded record : Record Value) :
    recordKey (primaryKey settings layout) (upserted columns excluded record) =
      recordKey (primaryKey settings layout) record := by
  unfold upserted
  split
  · rfl
  · exact takenContents_key outside excluded record _

theorem replaced_key {assignments : List (String × DMLStatement)}
    (outside : OutsideKey settings layout (assignments.map Prod.fst)) (record : Record Value) :
    recordKey (primaryKey settings layout) (replaced engine assignments record) =
      recordKey (primaryKey settings layout) record := by
  unfold replaced
  split
  · rfl
  · exact assignedContents_key outside record

theorem upserted_step (columns : List String) (excluded record : Record Value) :
    Step (some record) (some (upserted columns excluded record)) := by
  unfold upserted
  split
  · exact .keep
  · exact .advance

theorem replaced_step (assignments : List (String × DMLStatement)) (record : Record Value) :
    Step (some record) (some (replaced engine assignments record)) := by
  unfold replaced
  split
  · exact .keep
  · exact .advance

theorem imported_eq {columns : List String} {excluded record : Record Value}
    (same : ∀ column ∈ columns, excluded.contents column = record.contents column) :
    imported columns excluded record = record := by
  have contents : takenContents columns excluded record = record.contents := by
    funext column
    unfold takenContents
    split
    · rename_i listed
      exact same column listed
    · rfl
  rw [imported, contents]

variable [DecidableEq Value] {mutation : Mutation} {before after : Table Value}

/-- What one statement preserves: the rows stay apart, and each takes a step,
unless an import overwrites one. -/
theorem runs_disciplined (sound : mutation.Sound settings layout)
    (keyed : Keyed (primaryKey settings layout) before)
    (runs : Runs engine (primaryKey settings layout) mutation before after)
    (clean : ¬ mutation.Overwrites engine (primaryKey settings layout) before) :
    Disciplined (primaryKey settings layout) before after := by
  cases runs with
  | insert absent => exact disciplined_append absent rfl
  | upsert present =>
      have outside := (sound _ _ rfl).2
      apply disciplined_map
      · intro record _
        split
        · exact upserted_key outside _ record
        · rfl
      · intro record _
        split
        · exact upserted_step _ _ record
        · exact .keep
  | update =>
      apply disciplined_map
      · intro record _
        split
        · exact assignedContents_key sound record
        · rfl
      · intro record _
        split
        · exact .advance
        · exact .keep
  | replace =>
      apply disciplined_map
      · intro record _
        split
        · exact replaced_key sound record
        · rfl
      · intro record _
        split
        · exact replaced_step _ record
        · exact .keep
  | delete => exact disciplined_filter keyed
  | claim eligible bounded =>
      apply disciplined_map
      · intro record _
        split
        · exact assignedContents_key sound.2 record
        · rfl
      · intro record _
        split
        · exact .advance
        · exact .keep
  | importNew absent => exact disciplined_append absent rfl
  | importOver present =>
      apply disciplined_map
      · intro record _
        split
        · exact takenContents_key sound.2 _ record _
        · rfl
      · intro record listed
        split
        · rename_i same
          rw [imported_eq]
          · exact .keep
          · intro column taken
            by_contra different
            exact clean ⟨record, listed, same, column, taken, different⟩
        · exact .keep

/-- An import that overwrites a row changes it and leaves its version. -/
theorem overwrites_undisciplined (sound : mutation.Sound settings layout)
    (keyed : Keyed (primaryKey settings layout) before)
    (runs : Runs engine (primaryKey settings layout) mutation before after)
    (overwrites : mutation.Overwrites engine (primaryKey settings layout) before) :
    ¬ Disciplined (primaryKey settings layout) before after := by
  intro disciplined
  cases mutation with
  | importRow columns values keys taken first =>
      rcases overwrites with ⟨record, listed, same, column, member, different⟩
      cases runs with
      | importNew absent => exact absent record listed same
      | importOver present =>
          have step := disciplined (recordKey (primaryKey settings layout) record)
          rw [recordAt_map, recordAt_of_mem keyed listed, Option.map_some, if_pos same] at step
          · have changed : (imported taken (insertedRecord engine columns values)
                record).contents ≠ record.contents := by
              intro equal
              have value := congrFun equal column
              simp only [imported, takenContents, if_pos member] at value
              exact different value
            have advanced := step.advances changed
            simp only [imported] at advanced
            omega
          · intro other _
            split
            · exact takenContents_key sound.2 _ other _
            · rfl
  | _ => exact overwrites

/-- A statement keeps the primary key. -/
theorem runs_keyed (sound : mutation.Sound settings layout)
    (keyed : Keyed (primaryKey settings layout) before)
    (runs : Runs engine (primaryKey settings layout) mutation before after) :
    Keyed (primaryKey settings layout) after := by
  cases runs with
  | insert absent => exact keyed_append keyed absent
  | upsert present =>
      apply keyed_map keyed
      intro record _
      split
      · exact upserted_key (sound _ _ rfl).2 _ record
      · rfl
  | update =>
      apply keyed_map keyed
      intro record _
      split
      · exact assignedContents_key sound record
      · rfl
  | replace =>
      apply keyed_map keyed
      intro record _
      split
      · exact replaced_key sound record
      · rfl
  | delete => exact keyed.sublist (List.filter_sublist.map _)
  | claim eligible bounded =>
      apply keyed_map keyed
      intro record _
      split
      · exact assignedContents_key sound.2 record
      · rfl
  | importNew absent => exact keyed_append keyed absent
  | importOver present =>
      apply keyed_map keyed
      intro record _
      split
      · exact takenContents_key sound.2 _ record _
      · rfl

/-- A statement leaves the rows alone that it does not address. -/
theorem runs_frame (sound : mutation.Sound settings layout)
    (keyed : Keyed (primaryKey settings layout) before)
    (runs : Runs engine (primaryKey settings layout) mutation before after)
    {record : Record Value} (listed : record ∈ before)
    (outside : ¬ mutation.Addresses engine (primaryKey settings layout) record) :
    record ∈ after := by
  cases runs with
  | insert absent => exact List.mem_append_left _ listed
  | upsert present => exact List.mem_map.mpr ⟨record, listed, if_neg outside⟩
  | update => exact List.mem_map.mpr ⟨record, listed, if_neg outside⟩
  | replace => exact List.mem_map.mpr ⟨record, listed, if_neg outside⟩
  | delete => exact List.mem_filter.mpr ⟨listed, by simpa [Mutation.Addresses] using outside⟩
  | claim eligible bounded =>
      refine List.mem_map.mpr ⟨record, listed, if_neg ?_⟩
      intro chosen
      rcases List.mem_map.mp chosen with ⟨other, picked, same⟩
      rw [sound.1] at same
      have equal := List.inj_on_of_nodup_map keyed (eligible other picked).1 listed same
      exact outside (equal ▸ (eligible other picked).2)
  | importNew absent => exact List.mem_append_left _ listed
  | importOver present => exact List.mem_map.mpr ⟨record, listed, if_neg outside⟩

end Execution

/-! ## Write paths -/

/-- The statements that the write paths of a collection make. -/
inductive Written (compiler : DMLCompiler) (layout : ResourceLayout) : DMLStatement → Prop
  | compiled {method canonical input context commands} {command : DMLCommand}
      (found : compiler.settings.layout canonical = some layout) (writes : method ≠ .get)
      (accepted : compiler.compile method canonical input context = .ok commands)
      (listed : command ∈ commands) : Written compiler layout command.statement
  | claimed {filter changes limit context} {command : DMLCommand}
      (accepted : compiler.atomicClaim layout filter changes limit context = .ok command) :
      Written compiler layout command.statement
  | imported {canonical scope record statement}
      (found : compiler.settings.layout canonical = some layout)
      (named : Json.get record "resource" = some (.string canonical))
      (accepted : Migration.importLine compiler scope (.object record) = .ok statement) :
      Written compiler layout statement

section WritePaths

variable {compiler : DMLCompiler} {layout : ResourceLayout} {context : OperationContext}

theorem mutation_of_command {compiled : Compiled DMLCommand} {emitted : Compiled Mutation}
    {command : DMLCommand} (same : compiled.map DMLCommand.statement =
      emitted.map (Mutation.statement compiler layout)) (accepted : compiled = .ok command) :
    ∃ mutation, emitted = .ok mutation ∧
      command.statement = mutation.statement compiler layout := by
  rw [accepted] at same
  cases emitted with
  | error error => exact nomatch same
  | ok mutation => exact ⟨mutation, rfl, Except.ok.inj same⟩

theorem append_emitted {data : Option Json} {command : DMLCommand}
    (accepted : compiler.append layout data context = .ok command) :
    ∃ mutation, Emits compiler layout mutation ∧
      command.statement = mutation.statement compiler layout := by
  rcases mutation_of_command (compiler.append_eq layout context data) accepted with
    ⟨mutation, emitted, text⟩
  exact ⟨mutation, .append emitted, text⟩

theorem compile_emitted {method : Method} {canonical : String} {input : Json.Object}
    {commands : List DMLCommand} (found : compiler.settings.layout canonical = some layout)
    (writes : method ≠ .get)
    (accepted : compiler.compile method canonical input context = .ok commands) :
    ∀ command ∈ commands, ∃ mutation, Emits compiler layout mutation ∧
      command.statement = mutation.statement compiler layout := by
  unfold DMLCompiler.compile at accepted
  rw [found] at accepted
  split at accepted
  · exact nomatch accepted
  · cases method with
    | get => exact absurd rfl writes
    | atomicClaim => exact nomatch accepted
    | put =>
        rcases map_eq_ok accepted with ⟨command, compiled, rfl⟩
        rcases mutation_of_command (compiler.put_eq layout context input) compiled with
          ⟨mutation, emitted, text⟩
        exact List.forall_mem_singleton.mpr ⟨mutation, .put emitted, text⟩
    | patch =>
        rcases map_eq_ok accepted with ⟨command, compiled, rfl⟩
        rcases mutation_of_command (compiler.patch_eq layout context input) compiled with
          ⟨mutation, emitted, text⟩
        exact List.forall_mem_singleton.mpr ⟨mutation, .patch emitted, text⟩
    | delete =>
        rcases map_eq_ok accepted with ⟨command, compiled, rfl⟩
        rcases mutation_of_command (compiler.delete_eq layout context input) compiled with
          ⟨mutation, emitted, text⟩
        exact List.forall_mem_singleton.mpr ⟨mutation, .delete emitted, text⟩
    | append =>
        dsimp only at accepted
        split at accepted
        · split at accepted
          · exact nomatch accepted
          · exact forall_of_mapM _ accepted fun _ compiled => append_emitted compiled
        · rcases map_eq_ok accepted with ⟨command, compiled, rfl⟩
          exact List.forall_mem_singleton.mpr (append_emitted compiled)

theorem importLine_emitted {canonical : String} {scope : List (String × String)}
    {record : Json.Object} {statement : DMLStatement}
    (found : compiler.settings.layout canonical = some layout)
    (named : Json.get record "resource" = some (.string canonical))
    (accepted : Migration.importLine compiler scope (.object record) = .ok statement) :
    ∃ mutation, Emits compiler layout mutation ∧
      statement = mutation.statement compiler layout := by
  simp only [Migration.importLine, named] at accepted
  cases held : Json.get record "values" with
  | none => simp [held] at accepted
  | some payload =>
      cases payload with
      | object values =>
          simp only [held, found] at accepted
          split at accepted
          · exact nomatch accepted
          · split at accepted
            · exact nomatch accepted
            · split at accepted
              · exact nomatch accepted
              · have same := compiler.import_eq layout scope values
                rw [accepted] at same
                cases emitted : compiler.importMutation layout scope values with
                | error error =>
                    rw [emitted] at same
                    exact nomatch same
                | ok mutation =>
                    rw [emitted] at same
                    exact ⟨mutation, .importRow emitted, Except.ok.inj same⟩
      | _ => simp [held] at accepted

theorem Written.emitted {statement : DMLStatement} (written : Written compiler layout statement) :
    ∃ mutation, Emits compiler layout mutation ∧
      statement = mutation.statement compiler layout := by
  cases written with
  | compiled found writes accepted listed => exact compile_emitted found writes accepted _ listed
  | claimed accepted =>
      rcases mutation_of_command (compiler.claim_eq layout _ _ _ _) accepted with
        ⟨mutation, emitted, text⟩
      exact ⟨mutation, .claim emitted, text⟩
  | imported found named accepted => exact importLine_emitted found named accepted

end WritePaths

/-- What a statement may do: each row is left as it is, created at version 1,
advanced by one version or removed, and one that is not addressed stays. -/
def KeepsVersions {Value : Type} [DecidableEq Value] (engine : Engine Value)
    (keys : List String) (mutation : Mutation) (before after : Table Value) : Prop :=
  Disciplined keys before after ∧
    ∀ record ∈ before, ¬ mutation.Addresses engine keys record → record ∈ after

/-- Every write path keeps the discipline, except an import that overwrites a
row. -/
theorem record_version_discipline_iff {compiler : DMLCompiler} {layout : ResourceLayout}
    (valid : layout.check = .ok ()) :
    (∀ statement, Written compiler layout statement →
      ∃ mutation, Emits compiler layout mutation ∧
        statement = mutation.statement compiler layout) ∧
    ∀ {Value : Type} [DecidableEq Value] (engine : Engine Value) {mutation : Mutation}
      {before after : Table Value}, Emits compiler layout mutation →
      Keyed (primaryKey compiler.settings layout) before →
      Runs engine (primaryKey compiler.settings layout) mutation before after →
      (KeepsVersions engine (primaryKey compiler.settings layout) mutation before after ↔
        ¬ mutation.Overwrites engine (primaryKey compiler.settings layout) before) := by
  refine ⟨fun statement written => written.emitted, ?_⟩
  intro Value _ engine mutation before after emits keyed runs
  have sound := emits.sound valid
  constructor
  · intro kept overwrites
    exact overwrites_undisciplined sound keyed runs overwrites kept.1
  · intro clean
    exact ⟨runs_disciplined sound keyed runs clean, fun record listed outside =>
      runs_frame sound keyed runs listed outside⟩

/-! ## Examples -/

def boundValue : DriverValue → Json
  | .plain value => value
  | .jsonb value => value
  | .bytes _ => .null

/-- The column before each slot. -/
def comparedColumns (last : String) : Sql Origin → List String
  | [] => []
  | .name column :: rest => comparedColumns column rest
  | .text _ :: rest => comparedColumns last rest
  | .slot _ :: rest => last :: comparedColumns last rest

/-- PostgreSQL, on values that are bound as they are and conditions that give
values of columns. -/
def workEngine : Engine Json where
  null := .null
  store := fun _ value =>
    match value.parameters with
    | [parameter] => boundValue parameter.value
    | _ => .null
  holds := fun condition record =>
    ((comparedColumns "" condition.command).zip condition.parameters).all fun entry =>
      decide (record.contents entry.1 = boundValue entry.2.value)
  versionIs := fun expected version => decide (expected = .int version)

def workRecord (state : String) (version : Int) : Record Json where
  contents := fun column =>
    if column = "__tenant" then .string "tenant"
    else if column = "__scope_workspace" then .string "main"
    else if column = "id" then .string "x"
    else if column = "state" then .string state
    else if column = "priority" then .int 1
    else .null
  version := version

def workKey : List String := primaryKey workSettings workLayout

theorem workRecord_keyed (state : String) (version : Int) :
    Keyed workKey [workRecord state version] := List.nodup_singleton _

def workReplaced : Compiled Mutation :=
  workCompiler.putMutation workLayout workOperation (workUpdate (.string "x"))

theorem workReplaced_runs : ∃ mutation after, workReplaced = .ok mutation ∧
    Runs workEngine workKey mutation [workRecord "waiting" 3] after ∧
    ¬ mutation.Overwrites workEngine workKey [workRecord "waiting" 3] :=
  ⟨_, _, rfl, .replace, id⟩

/-- An update of an item advances it. -/
theorem update_keeps_versions : ∃ mutation after, workReplaced = .ok mutation ∧
    Runs workEngine workKey mutation [workRecord "waiting" 3] after ∧
    KeepsVersions workEngine workKey mutation [workRecord "waiting" 3] after := by
  rcases workReplaced_runs with ⟨mutation, after, compiled, runs, clean⟩
  have valid : workLayout.check = .ok () := by decide
  refine ⟨mutation, after, compiled, runs, ?_⟩
  exact ((@record_version_discipline_iff workCompiler workLayout valid).2 workEngine
    (.put compiled) (workRecord_keyed _ _) runs).mpr clean

/-- An exported line of an item in another state. -/
def workImport : Compiled Mutation :=
  workCompiler.importMutation workLayout
    [("__tenant", "tenant"), ("__scope_workspace", "main")]
    [("id", .string "x"), ("state", .string "ready"), ("owner", .null), ("priority", .int 1)]

def stateOf (record : Record Json) : Json × Int := (record.contents "state", record.version)

theorem workImport_overwrites : ∃ mutation after, workImport = .ok mutation ∧
    Runs workEngine workKey mutation [workRecord "waiting" 3] after ∧
    after.map stateOf = [(.string "ready", 3)] ∧
    mutation.Overwrites workEngine workKey [workRecord "waiting" 3] :=
  ⟨_, _, rfl, .importOver ⟨_, List.mem_singleton_self _, rfl⟩, rfl, _,
    List.mem_singleton_self _, rfl, "state", by decide, by decide⟩

/-- The import gives the item another state and leaves its version. -/
theorem import_keeps_version : ∃ mutation after, workImport = .ok mutation ∧
    Runs workEngine workKey mutation [workRecord "waiting" 3] after ∧
    after.map stateOf = [(.string "ready", 3)] ∧
    ¬ KeepsVersions workEngine workKey mutation [workRecord "waiting" 3] after := by
  rcases workImport_overwrites with ⟨mutation, after, compiled, runs, states, overwrites⟩
  refine ⟨mutation, after, compiled, runs, states, ?_⟩
  intro kept
  have valid : workLayout.check = .ok () := by decide
  have sound : mutation.Sound workSettings workLayout := Emits.sound valid (.importRow compiled)
  exact overwrites_undisciplined sound (workRecord_keyed _ _) runs overwrites kept.1

end MeridianPostgreSQL.Query
