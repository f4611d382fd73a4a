import MeridianPostgreSQL.Query.DmlAlignment
import MeridianPostgreSQL.Query.Filters
import MeridianPostgreSQL.Query.PlanIndependence

/-! # Values and the text of a mutation

Mutations that differ only in their values are compiled to one text, unless
the values are read as a filter. -/

namespace MeridianPostgreSQL.Query

open Settings

/-! ## Records -/

/-- Records with the same members in the same order, null in the same places. -/
def SameRecord (data other : Json.Object) : Prop :=
  List.Forall₂ (fun entry other => entry.1 = other.1 ∧ (entry.2 = .null ↔ other.2 = .null))
    data other

theorem SameRecord.refl (data : Json.Object) : SameRecord data data :=
  List.forall₂_same.mpr fun _ _ => ⟨rfl, Iff.rfl⟩

section Records

variable {data other : Json.Object}

theorem SameRecord.names (same : SameRecord data other) : Json.names data = Json.names other := by
  induction same with
  | nil => rfl
  | cons first _ induction =>
      simp only [Json.names, List.map_cons] at induction ⊢
      rw [first.1, induction]

theorem SameRecord.get (same : SameRecord data other) (name : String) :
    Option.Rel (fun value other => value = .null ↔ other = .null)
      (Json.get data name) (Json.get other name) := by
  unfold Json.get
  induction same with
  | nil => exact .none
  | @cons entry otherEntry _ _ first _ induction =>
      rcases entry with ⟨key, value⟩
      rcases otherEntry with ⟨otherKey, otherValue⟩
      rcases first with ⟨rfl, nulls⟩
      rw [List.lookup_cons, List.lookup_cons]
      cases name == key with
      | true => exact .some nulls
      | false => exact induction

theorem SameRecord.getD_null (same : SameRecord data other) (name : String) :
    (Json.get data name).getD .null = .null ↔ (Json.get other name).getD .null = .null := by
  have related := same.get name
  revert related
  generalize Json.get data name = value
  generalize Json.get other name = otherValue
  rintro (nulls | _)
  · exact nulls
  · exact Iff.rfl

theorem SameRecord.filter (same : SameRecord data other) (keep : String → Bool) :
    SameRecord (data.filter fun entry => keep entry.1) (other.filter fun entry => keep entry.1) := by
  induction same with
  | nil => exact .nil
  | @cons entry otherEntry _ _ first _ induction =>
      rw [List.filter_cons, List.filter_cons, ← first.1]
      cases keep entry.1 with
      | true => exact .cons first induction
      | false => exact induction

end Records

/-! ## Values -/

theorem fieldValue_command {field : FieldLayout} {value other : Json}
    {statement otherStatement : DMLStatement} (nulls : value = .null ↔ other = .null)
    (compiled : fieldValue field value = .ok statement)
    (otherCompiled : fieldValue field other = .ok otherStatement) :
    statement.command = otherStatement.command := by
  unfold fieldValue at compiled otherCompiled
  by_cases absent : value = .null
  · rw [if_pos absent] at compiled
    rw [if_pos (nulls.mp absent)] at otherCompiled
    split at compiled
    · rename_i nullable
      rw [if_pos nullable] at otherCompiled
      cases compiled
      cases otherCompiled
      rfl
    · exact nomatch compiled
  · rw [if_neg absent] at compiled
    rw [if_neg fun missing => absent (nulls.mpr missing)] at otherCompiled
    split at compiled
    · rename_i json
      rw [if_pos json] at otherCompiled
      cases compiled
      cases otherCompiled
      rfl
    · rename_i scalar
      rw [if_neg scalar] at otherCompiled
      split at compiled
      · rename_i point
        rw [if_pos point] at otherCompiled
        rcases bind_eq_ok compiled with ⟨coordinates, _, compiled⟩
        rcases bind_eq_ok otherCompiled with ⟨otherCoordinates, _, otherCompiled⟩
        cases compiled
        cases otherCompiled
        rfl
      · rename_i plain
        rw [if_neg plain] at otherCompiled
        rcases bind_eq_ok compiled with ⟨adapted, _, compiled⟩
        rcases bind_eq_ok otherCompiled with ⟨otherAdapted, _, otherCompiled⟩
        cases compiled
        cases otherCompiled
        rfl

/-- One list compiled twice. -/
theorem mapM_commands {α : Type} {items : List α} {f g : α → Compiled DMLStatement}
    {statements others : List DMLStatement} (compiled : items.mapM f = .ok statements)
    (otherCompiled : items.mapM g = .ok others)
    (each : ∀ {item statement other}, f item = .ok statement → g item = .ok other →
      statement.command = other.command) :
    statements.map BoundStatement.command = others.map BoundStatement.command := by
  have mapped := mapM_eq_ok compiled
  have otherMapped := mapM_eq_ok otherCompiled
  clear compiled otherCompiled
  induction mapped generalizing others with
  | nil =>
      cases otherMapped
      rfl
  | cons head _ induction =>
      cases otherMapped with
      | cons otherHead otherTail =>
          rw [List.map_cons, List.map_cons, each head otherHead, induction otherTail]

/-- The columns and the texts of a record's values. -/
def valueShape (value : String × DMLStatement) : String × Sql Origin :=
  (value.1, value.2.command)

theorem fieldValues_shape {layout : ResourceLayout} {data other : Json.Object}
    {values otherValues : List (String × DMLStatement)} (same : SameRecord data other)
    (compiled : fieldValues layout data = .ok values)
    (otherCompiled : fieldValues layout other = .ok otherValues) :
    values.map valueShape = otherValues.map valueShape := by
  have mapped := mapM_eq_ok compiled
  have otherMapped := mapM_eq_ok otherCompiled
  clear compiled otherCompiled
  induction same generalizing values otherValues with
  | nil =>
      cases mapped
      cases otherMapped
      rfl
  | cons first _ induction =>
      rcases first with ⟨names, nulls⟩
      cases mapped with
      | cons head tail =>
          cases otherMapped with
          | cons otherHead otherTail =>
              rw [← names] at otherHead
              rcases bind_eq_ok head with ⟨field, fieldOk, head⟩
              rcases bind_eq_ok head with ⟨value, valueOk, head⟩
              rcases bind_eq_ok otherHead with ⟨otherField, otherFieldOk, otherHead⟩
              rcases bind_eq_ok otherHead with ⟨otherValue, otherValueOk, otherHead⟩
              cases fieldOk.symm.trans otherFieldOk
              cases head
              cases otherHead
              rw [List.map_cons, List.map_cons, induction tail otherTail]
              simp only [valueShape]
              rw [fieldValue_command nulls valueOk otherValueOk]

theorem valueList_command {values others : List DMLStatement}
    (same : values.map BoundStatement.command = others.map BoundStatement.command) :
    (valueList values).command = (valueList others).command := by
  simp only [valueList]
  rw [same]

theorem commands_of_shape {values others : List (String × DMLStatement)}
    (same : values.map valueShape = others.map valueShape) :
    (values.map Prod.snd).map BoundStatement.command =
      (others.map Prod.snd).map BoundStatement.command := by
  have second := congrArg (List.map Prod.snd) same
  simpa [valueShape, Function.comp_def] using second

theorem columns_of_shape {values others : List (String × DMLStatement)}
    (same : values.map valueShape = others.map valueShape) :
    values.map Prod.fst = others.map Prod.fst := by
  have first := congrArg (List.map Prod.fst) same
  simpa [valueShape, Function.comp_def] using first

def DMLCommand.sql (command : DMLCommand) : List Char := command.statement.command.render

namespace DMLCompiler

section Parts

variable {compiler : DMLCompiler} {layout : ResourceLayout} {data other : Json.Object}

theorem assignments_command {assigned otherAssigned : DMLStatement} (same : SameRecord data other)
    (compiled : compiler.assignments layout data = .ok assigned)
    (otherCompiled : compiler.assignments layout other = .ok otherAssigned) :
    assigned.command = otherAssigned.command := by
  unfold assignments at compiled otherCompiled
  dsimp only at compiled otherCompiled
  split at compiled
  · exact nomatch compiled
  · split at compiled
    · exact nomatch compiled
    · split at otherCompiled
      · exact nomatch otherCompiled
      · split at otherCompiled
        · exact nomatch otherCompiled
        · rcases bind_eq_ok compiled with ⟨_, _, compiled⟩
          rcases bind_eq_ok compiled with ⟨values, valuesOk, compiled⟩
          rcases bind_eq_ok otherCompiled with ⟨_, _, otherCompiled⟩
          rcases bind_eq_ok otherCompiled with ⟨otherValues, otherValuesOk, otherCompiled⟩
          cases compiled
          cases otherCompiled
          have shapes := congrArg
            (List.map fun shape : String × Sql Origin =>
              [Piece.name shape.1, .text " = "] ++ shape.2)
            (fieldValues_shape same valuesOk otherValuesOk)
          apply valueList_command
          simpa [valueShape, Function.comp_def] using shapes

theorem insertion_command {scope : List (String × String)}
    {values otherValues : List (String × DMLStatement)}
    (same : values.map valueShape = otherValues.map valueShape) :
    (compiler.insertion layout scope values).command =
      (compiler.insertion layout scope otherValues).command := by
  have selected : (valueList (scopeParameters scope ++ values.map Prod.snd)).command =
      (valueList (scopeParameters scope ++ otherValues.map Prod.snd)).command := by
    apply valueList_command
    rw [List.map_append, List.map_append, commands_of_shape same]
  simp only [insertion]
  rw [columns_of_shape same, selected]

theorem replacedFields_command {assigned otherAssigned : DMLStatement}
    (same : SameRecord data other) (compiled : replacedFields layout data = .ok assigned)
    (otherCompiled : replacedFields layout other = .ok otherAssigned) :
    assigned.command = otherAssigned.command := by
  unfold replacedFields at compiled otherCompiled
  rcases bind_eq_ok compiled with ⟨values, valuesOk, compiled⟩
  rcases bind_eq_ok otherCompiled with ⟨otherValues, otherValuesOk, otherCompiled⟩
  have commands : values.map BoundStatement.command =
      otherValues.map BoundStatement.command := by
    apply mapM_commands valuesOk otherValuesOk
    intro field value otherValue valueOk otherValueOk
    rcases bind_eq_ok valueOk with ⟨written, writtenOk, valueOk⟩
    rcases bind_eq_ok otherValueOk with ⟨otherWritten, otherWrittenOk, otherValueOk⟩
    cases valueOk
    cases otherValueOk
    dsimp only
    rw [fieldValue_command (same.getD_null field.name) writtenOk otherWrittenOk]
  split at compiled
  · rename_i fixed
    rw [if_pos fixed] at otherCompiled
    cases compiled
    cases otherCompiled
    rfl
  · rename_i replaced
    rw [if_neg replaced] at otherCompiled
    cases compiled
    cases otherCompiled
    dsimp only
    rw [valueList_command commands]

end Parts

/-! ## Inputs -/

/-- Items of a batch that differ only in their values. -/
inductive SameItem : Json → Json → Prop
  | same {item} : SameItem item item
  | record {data other} (same : SameRecord data other) :
      SameItem (.object data) (.object other)

/-- Members of an input that differ only in the values of their fields. -/
inductive SameMember (reader : FilterReader) (layout : ResourceLayout) :
    String → Json → Json → Prop
  | same {name value} : SameMember reader layout name value value
  | record {name data other} (named : name ∈ ["data", "event", "changes"])
      (same : SameRecord data other) :
      SameMember reader layout name (.object data) (.object other)
  | batch {name items others} (named : name ∈ ["data", "event"])
      (each : List.Forall₂ SameItem items others) :
      SameMember reader layout name (.array items) (.array others)
  | filter {filter other : Json.Object} (documented : reader.Documented layout filter)
      (otherDocumented : reader.Documented layout other)
      (same : reader.operators filter = reader.operators other) :
      SameMember reader layout "where" (.object filter) (.object other)

/-- Inputs with the same keys in the same order that differ only in values. -/
def SameInput (reader : FilterReader) (layout : ResourceLayout) (input other : Json.Object) :
    Prop :=
  List.Forall₂ (fun entry other => entry.1 = other.1 ∧
    SameMember reader layout entry.1 entry.2 other.2) input other

/-- The values by which a put finds its record: only a plain insertion and an
upsert leave that to the key of the table. -/
def addressesByValue (method : Method) (input : Json.Object) : Bool :=
  method = .put ∧ ((member input "expectedVersion").isSome ∨
    Json.get input "mode" = some (.string "update"))

section Inputs

variable {reader : FilterReader} {layout : ResourceLayout} {input other : Json.Object}

theorem SameInput.get (same : SameInput reader layout input other) (name : String) :
    Option.Rel (SameMember reader layout name) (Json.get input name) (Json.get other name) := by
  unfold Json.get
  induction same with
  | nil => exact .none
  | @cons entry otherEntry _ _ first _ induction =>
      rcases entry with ⟨key, value⟩
      rcases otherEntry with ⟨otherKey, otherValue⟩
      rcases first with ⟨rfl, members⟩
      rw [List.lookup_cons, List.lookup_cons]
      cases equal : name == key with
      | true =>
          cases eq_of_beq equal
          exact .some members
      | false => exact induction

theorem SameInput.get_eq (same : SameInput reader layout input other) {name : String}
    (fixed : name ∉ ["data", "event", "changes", "where"]) :
    Json.get input name = Json.get other name := by
  have related := same.get name
  revert related
  generalize Json.get input name = value
  generalize Json.get other name = otherValue
  rintro (members | _)
  · cases members with
    | same => rfl
    | record named _ => simp_all
    | batch named _ => simp_all
    | filter => simp at fixed
  · rfl

theorem SameInput.member_eq (same : SameInput reader layout input other) {name : String}
    (fixed : name ∉ ["data", "event", "changes", "where"]) :
    member input name = member other name := by
  unfold member
  rw [same.get_eq fixed]

/-- The filter of one input beside that of the other. -/
theorem SameInput.filters (same : SameInput reader layout input other)
    {filter otherFilter : Json.Object}
    (given : Json.get input "where" = some (.object filter))
    (otherGiven : Json.get other "where" = some (.object otherFilter)) :
    SameMember reader layout "where" (.object filter) (.object otherFilter) := by
  have related := same.get "where"
  rw [given, otherGiven] at related
  cases related with
  | some members => exact members

/-- The record of one input beside that of the other. -/
theorem SameInput.record (same : SameInput reader layout input other) {name : String}
    (named : name ≠ "where") {data otherData : Json.Object}
    (given : Json.get input name = some (.object data))
    (otherGiven : Json.get other name = some (.object otherData)) : SameRecord data otherData := by
  have related := same.get name
  rw [given, otherGiven] at related
  cases related with
  | some members =>
      cases members with
      | same => exact .refl data
      | record _ same => exact same
      | filter => exact absurd rfl named

end Inputs

/-! ## Statements -/

section Statements

variable {compiler : DMLCompiler} {reader : FilterReader} {layout : ResourceLayout}
  {data other : Json.Object} {context : OperationContext}
  {statement otherStatement : DMLStatement}

theorem where_text (reads : ReadsFilters reader layout compiler.parseFilter)
    (unique : (layout.fields.map FieldLayout.column).Nodup) {filter otherFilter : Json.Object}
    {tableAlias : String} (same : SameMember reader layout "where" (.object filter) (.object otherFilter))
    (compiled : compiler.condition layout filter context tableAlias = .ok statement)
    (otherCompiled : compiler.condition layout otherFilter context tableAlias =
      .ok otherStatement) :
    statement.command.render = otherStatement.command.render := by
  cases same with
  | same =>
      cases compiled.symm.trans otherCompiled
      rfl
  | record named _ => simp at named
  | filter documented otherDocumented same =>
      exact (condition_text_iff reads unique documented otherDocumented compiled
        otherCompiled).mpr same

section Identity

variable (reads : ReadsFilters reader layout compiler.parseFilter)
  (valid : layout.check = .ok ()) (documented : reader.DocumentedIdentity layout data)
  (otherDocumented : reader.DocumentedIdentity layout other) (same : SameRecord data other)

include reads valid documented otherDocumented same

/-- Records with the same members give values of the same identity fields. -/
theorem identity_text_iff
    (compiled : compiler.condition layout (identityValues layout data) context "t" =
      .ok statement)
    (otherCompiled : compiler.condition layout (identityValues layout other) context "t" =
      .ok otherStatement) :
    statement.command.render = otherStatement.command.render ↔
      reader.operators (identityValues layout data) =
        reader.operators (identityValues layout other) := by
  have names : Json.names (identityValues layout data) =
      Json.names (identityValues layout other) := by
    unfold Json.names identityValues
    rw [List.map_filterMap, List.map_filterMap]
    apply List.filterMap_congr
    intro name _
    have related := same.get name
    revert related
    generalize Json.get data name = value
    generalize Json.get other name = otherValue
    rintro (_ | _) <;> rfl
  by_cases present : identityValues layout data = []
  · have otherPresent : identityValues layout other = [] := by
      rw [present] at names
      exact List.map_eq_nil_iff.mp names.symm
    rw [present] at compiled ⊢
    rw [otherPresent] at otherCompiled ⊢
    cases compiled.symm.trans otherCompiled
    exact iff_of_true rfl rfl
  · have otherPresent : identityValues layout other ≠ [] := by
      intro empty
      rw [empty] at names
      exact present (List.map_eq_nil_iff.mp names)
    exact condition_text_iff reads (columns_nodup valid) (documented.documented valid present)
      (otherDocumented.documented valid otherPresent) compiled otherCompiled

theorem conditionalPut_text_iff {expected : Json}
    (compiled : compiler.conditionalPut layout data expected context = .ok statement)
    (otherCompiled : compiler.conditionalPut layout other expected context =
      .ok otherStatement) :
    statement.command.render = otherStatement.command.render ↔
      reader.operators (identityValues layout data) = reader.operators (identityValues layout other) := by
  unfold conditionalPut at compiled otherCompiled
  dsimp only at compiled otherCompiled
  split at compiled
  · exact nomatch compiled
  · split at otherCompiled
    · exact nomatch otherCompiled
    · rcases bind_eq_ok compiled with ⟨changes, changesOk, compiled⟩
      rcases bind_eq_ok compiled with ⟨condition, conditionOk, compiled⟩
      rcases bind_eq_ok otherCompiled with ⟨otherChanges, otherChangesOk, otherCompiled⟩
      rcases bind_eq_ok otherCompiled with ⟨otherCondition, otherConditionOk, otherCompiled⟩
      cases compiled
      cases otherCompiled
      have changed := assignments_command
        (same.filter fun name => decide (name ∉ layout.identity)) changesOk otherChangesOk
      rw [← identity_text_iff reads valid documented otherDocumented same conditionOk
        otherConditionOk, changed]
      simp only [render_append, List.append_left_inj, List.append_right_inj]

theorem updatePut_text_iff
    (compiled : compiler.updatePut layout data context = .ok statement)
    (otherCompiled : compiler.updatePut layout other context = .ok otherStatement) :
    statement.command.render = otherStatement.command.render ↔
      reader.operators (identityValues layout data) = reader.operators (identityValues layout other) := by
  unfold updatePut at compiled otherCompiled
  rcases bind_eq_ok compiled with ⟨changes, changesOk, compiled⟩
  rcases bind_eq_ok compiled with ⟨identity, identityOk, compiled⟩
  rcases bind_eq_ok compiled with ⟨condition, conditionOk, compiled⟩
  rcases bind_eq_ok otherCompiled with ⟨otherChanges, otherChangesOk, otherCompiled⟩
  rcases bind_eq_ok otherCompiled with ⟨otherIdentity, otherIdentityOk, otherCompiled⟩
  rcases bind_eq_ok otherCompiled with ⟨otherCondition, otherConditionOk, otherCompiled⟩
  cases compiled
  cases otherCompiled
  cases identity_eq identityOk
  cases identity_eq otherIdentityOk
  rw [← identity_text_iff reads valid documented otherDocumented same conditionOk
    otherConditionOk, replacedFields_command same changesOk otherChangesOk]
  simp only [render_append, List.append_left_inj, List.append_right_inj]

end Identity

theorem putStatement_text_iff (reads : ReadsFilters reader layout compiler.parseFilter)
    (valid : layout.check = .ok ()) (same : SameRecord data other)
    {mode : PutMode} {expected : Option Json}
    (documented : expected.isSome = true ∨ mode = .update →
      reader.DocumentedIdentity layout data ∧ reader.DocumentedIdentity layout other)
    (compiled : compiler.putStatement layout mode expected data context = .ok statement)
    (otherCompiled : compiler.putStatement layout mode expected other context =
      .ok otherStatement) :
    statement.command.render = otherStatement.command.render ↔
      (expected.isSome = true ∨ mode = .update →
        reader.operators (identityValues layout data) = reader.operators (identityValues layout other)) := by
  unfold putStatement at compiled otherCompiled
  rcases bind_eq_ok compiled with ⟨scope, inScope, compiled⟩
  rcases bind_eq_ok compiled with ⟨values, valuesOk, compiled⟩
  rcases bind_eq_ok otherCompiled with ⟨otherScope, otherInScope, otherCompiled⟩
  rcases bind_eq_ok otherCompiled with ⟨otherValues, otherValuesOk, otherCompiled⟩
  cases inScope.symm.trans otherInScope
  have shapes := fieldValues_shape same valuesOk otherValuesOk
  cases expected with
  | some version =>
      have both := documented (.inl rfl)
      rw [conditionalPut_text_iff reads valid both.1 both.2 same compiled otherCompiled]
      simp
  | none =>
      rcases bind_eq_ok compiled with ⟨keys, keysOk, compiled⟩
      rcases bind_eq_ok otherCompiled with ⟨otherKeys, otherKeysOk, otherCompiled⟩
      cases keysOk.symm.trans otherKeysOk
      have inserted : (compiler.insertion layout scope values).command =
          (compiler.insertion layout scope otherValues).command := insertion_command shapes
      cases mode with
      | update =>
          have both := documented (.inr rfl)
          rw [updatePut_text_iff reads valid both.1 both.2 same compiled otherCompiled]
          simp
      | upsert =>
          cases compiled
          cases otherCompiled
          simp [inserted]
      | ifAbsent =>
          cases compiled
          cases otherCompiled
          simp [inserted]

theorem append_text {item otherItem : Option Json} {command otherCommand : DMLCommand}
    (same : Option.Rel SameItem item otherItem)
    (compiled : compiler.append layout item context = .ok command)
    (otherCompiled : compiler.append layout otherItem context = .ok otherCommand) :
    command.statement.command = otherCommand.statement.command := by
  have records : SameRecord (members item) (members otherItem) := by
    cases same with
    | none => exact .nil
    | some same =>
        cases same with
        | same => exact .refl _
        | record same => exact same
  rw [append_data compiled] at compiled
  rw [append_data otherCompiled] at otherCompiled
  rcases bind_eq_ok compiled with ⟨_, _, compiled⟩
  rcases bind_eq_ok compiled with ⟨scope, inScope, compiled⟩
  rcases bind_eq_ok compiled with ⟨values, valuesOk, compiled⟩
  rcases bind_eq_ok otherCompiled with ⟨_, _, otherCompiled⟩
  rcases bind_eq_ok otherCompiled with ⟨otherScope, otherInScope, otherCompiled⟩
  rcases bind_eq_ok otherCompiled with ⟨otherValues, otherValuesOk, otherCompiled⟩
  cases inScope.symm.trans otherInScope
  cases compiled
  cases otherCompiled
  dsimp only
  rw [insertion_command (fieldValues_shape records valuesOk otherValuesOk)]

theorem atomicClaim_text (reads : ReadsFilters reader layout compiler.parseFilter)
    (unique : (layout.fields.map FieldLayout.column).Nodup)
    {filter otherFilter changes otherChanges : Json.Object} {limit otherLimit : Nat}
    {command otherCommand : DMLCommand}
    (filters : SameMember reader layout "where" (.object filter) (.object otherFilter))
    (same : SameRecord changes otherChanges)
    (compiled : compiler.atomicClaim layout filter changes limit context = .ok command)
    (otherCompiled : compiler.atomicClaim layout otherFilter otherChanges otherLimit context =
      .ok otherCommand) :
    command.statement.command.render = otherCommand.statement.command.render := by
  unfold atomicClaim at compiled otherCompiled
  obtain ⟨_, compiled⟩ := check_eq_ok compiled
  obtain ⟨_, compiled⟩ := check_eq_ok compiled
  obtain ⟨_, otherCompiled⟩ := check_eq_ok otherCompiled
  obtain ⟨_, otherCompiled⟩ := check_eq_ok otherCompiled
  rcases bind_eq_ok compiled with ⟨condition, conditionOk, compiled⟩
  rcases bind_eq_ok compiled with ⟨assigned, assignedOk, compiled⟩
  rcases bind_eq_ok compiled with ⟨keys, keysOk, compiled⟩
  rcases bind_eq_ok otherCompiled with ⟨otherCondition, otherConditionOk, otherCompiled⟩
  rcases bind_eq_ok otherCompiled with ⟨otherAssigned, otherAssignedOk, otherCompiled⟩
  rcases bind_eq_ok otherCompiled with ⟨otherKeys, otherKeysOk, otherCompiled⟩
  cases keysOk.symm.trans otherKeysOk
  cases compiled
  cases otherCompiled
  have conditions := where_text reads unique filters conditionOk otherConditionOk
  have changed := assignments_command same assignedOk otherAssignedOk
  simp only [render_append, conditions, changed]

theorem putVersion_eq {mode : PutMode} {input : Json.Object} {expected : Option Json}
    (read : putVersion mode input = .ok expected) :
    expected = member input "expectedVersion" := by
  unfold putVersion at read
  repeat' split at read
  all_goals try contradiction
  all_goals
    cases read
    simp_all

theorem putMode_update {mode : PutMode} {input : Json.Object}
    (read : putMode input = .ok mode) :
    mode = .update ↔ Json.get input "mode" = some (.string "update") := by
  unfold putMode at read
  dsimp only at read
  repeat' split at read
  all_goals try contradiction
  all_goals
    cases read
    simp_all

theorem addressesByValue_iff {mode : PutMode} {input : Json.Object} {expected : Option Json}
    (modeRead : putMode input = .ok mode) (versionRead : putVersion mode input = .ok expected) :
    addressesByValue .put input = true ↔ expected.isSome = true ∨ mode = .update := by
  rw [putVersion_eq versionRead, putMode_update modeRead]
  simp [addressesByValue]

end Statements

/-! ## Requests -/

section Requests

variable {compiler : DMLCompiler} {reader : FilterReader} {layout : ResourceLayout}
  {input other : Json.Object} {context : OperationContext} {command otherCommand : DMLCommand}
  (reads : ReadsFilters reader layout compiler.parseFilter)
  (valid : layout.check = .ok ()) (same : SameInput reader layout input other)

include reads valid same

theorem put_text_iff
    (documented : addressesByValue .put input = true →
      reader.DocumentedIdentity layout (members (Json.get input "data")) ∧
        reader.DocumentedIdentity layout (members (Json.get other "data")))
    (compiled : compiler.put layout input context = .ok command)
    (otherCompiled : compiler.put layout other context = .ok otherCommand) :
    command.statement.command.render = otherCommand.statement.command.render ↔
      (addressesByValue .put input = true →
        reader.operators (addressed .put layout input) = reader.operators (addressed .put layout other)) := by
  unfold put at compiled otherCompiled
  rcases bind_eq_ok compiled with ⟨mode, modeOk, compiled⟩
  rcases bind_eq_ok compiled with ⟨expected, expectedOk, compiled⟩
  rcases bind_eq_ok otherCompiled with ⟨otherMode, otherModeOk, otherCompiled⟩
  rcases bind_eq_ok otherCompiled with ⟨otherExpected, otherExpectedOk, otherCompiled⟩
  have modes : putMode input = putMode other := by
    unfold putMode
    rw [same.get_eq (by decide)]
  cases modeOk.symm.trans (modes.trans otherModeOk)
  have versions : putVersion mode input = putVersion mode other := by
    unfold putVersion
    rw [same.member_eq (by decide)]
  cases expectedOk.symm.trans (versions.trans otherExpectedOk)
  have addresses := addressesByValue_iff modeOk expectedOk
  split at compiled
  · rename_i data given
    split at otherCompiled
    · rename_i otherData otherGiven
      rcases bind_eq_ok compiled with ⟨_, _, compiled⟩
      rcases bind_eq_ok compiled with ⟨_, _, compiled⟩
      rcases bind_eq_ok compiled with ⟨statement, statementOk, compiled⟩
      rcases bind_eq_ok otherCompiled with ⟨_, _, otherCompiled⟩
      rcases bind_eq_ok otherCompiled with ⟨_, _, otherCompiled⟩
      rcases bind_eq_ok otherCompiled with ⟨otherStatement, otherStatementOk, otherCompiled⟩
      cases compiled
      cases otherCompiled
      rw [given, otherGiven, addresses] at documented
      rw [addresses, addressed, addressed, given, otherGiven]
      exact putStatement_text_iff reads valid (same.record (by decide) given otherGiven)
        documented statementOk otherStatementOk
    · cases otherCompiled
  · cases compiled

theorem get_text (compiled : compiler.get layout input context = .ok command)
    (otherCompiled : compiler.get layout other context = .ok otherCommand) :
    command.statement.command.render = otherCommand.statement.command.render := by
  unfold get at compiled otherCompiled
  split at compiled
  · rename_i filter given
    split at otherCompiled
    · rename_i otherFilter otherGiven
      rcases bind_eq_ok compiled with ⟨condition, conditionOk, compiled⟩
      rcases bind_eq_ok otherCompiled with ⟨otherCondition, otherConditionOk, otherCompiled⟩
      cases compiled
      cases otherCompiled
      have conditions := where_text reads (columns_nodup valid) (same.filters given otherGiven) conditionOk
        otherConditionOk
      simp only [render_append, conditions]
    · exact nomatch otherCompiled
  · exact nomatch compiled

theorem patch_text (compiled : compiler.patch layout input context = .ok command)
    (otherCompiled : compiler.patch layout other context = .ok otherCommand) :
    command.statement.command.render = otherCommand.statement.command.render := by
  unfold patch at compiled otherCompiled
  split at compiled
  · rename_i filter changes given changesGiven
    split at otherCompiled
    · rename_i otherFilter otherChanges otherGiven otherChangesGiven
      rcases bind_eq_ok compiled with ⟨assigned, assignedOk, compiled⟩
      rcases bind_eq_ok compiled with ⟨condition, conditionOk, compiled⟩
      rcases bind_eq_ok otherCompiled with ⟨otherAssigned, otherAssignedOk, otherCompiled⟩
      rcases bind_eq_ok otherCompiled with ⟨otherCondition, otherConditionOk, otherCompiled⟩
      cases compiled
      cases otherCompiled
      have conditions := where_text reads (columns_nodup valid) (same.filters given otherGiven) conditionOk
        otherConditionOk
      have changed := assignments_command
        (same.record (by decide) changesGiven otherChangesGiven) assignedOk otherAssignedOk
      have version : member input "expectedVersion" = member other "expectedVersion" :=
        same.member_eq (by decide)
      simp only [render_append, conditions, changed, version]
    · exact nomatch otherCompiled
  · exact nomatch compiled

theorem delete_text (compiled : compiler.delete layout input context = .ok command)
    (otherCompiled : compiler.delete layout other context = .ok otherCommand) :
    command.statement.command.render = otherCommand.statement.command.render := by
  unfold delete at compiled otherCompiled
  split at compiled
  · rename_i filter given
    split at otherCompiled
    · rename_i otherFilter otherGiven
      rcases bind_eq_ok compiled with ⟨condition, conditionOk, compiled⟩
      rcases bind_eq_ok otherCompiled with ⟨otherCondition, otherConditionOk, otherCompiled⟩
      cases compiled
      cases otherCompiled
      have conditions := where_text reads (columns_nodup valid) (same.filters given otherGiven) conditionOk
        otherConditionOk
      have version : member input "expectedVersion" = member other "expectedVersion" :=
        same.member_eq (by decide)
      simp only [render_append, conditions, version]
    · exact nomatch otherCompiled
  · exact nomatch compiled

omit reads valid in
theorem appended_same : Option.Rel (fun item other => ∃ name ∈ ["data", "event"],
    SameMember reader layout name item other) (appended input) (appended other) := by
  have data := same.get "data"
  have event := same.get "event"
  unfold appended
  revert data event
  generalize Json.get input "data" = first
  generalize Json.get other "data" = otherFirst
  generalize Json.get input "event" = second
  generalize Json.get other "event" = otherSecond
  rintro (members | _) event
  · exact .some ⟨"data", by simp, members⟩
  · dsimp only
    cases event with
    | none => exact .none
    | some members => exact .some ⟨"event", by simp, members⟩

omit reads valid same in
theorem single_text {compiled otherCompiled : Compiled DMLCommand}
    {commands others : List DMLCommand}
    (mapped : compiled.map (fun command => [command]) = .ok commands)
    (otherMapped : otherCompiled.map (fun command => [command]) = .ok others) :
    ∃ command otherCommand, compiled = .ok command ∧ otherCompiled = .ok otherCommand ∧
      (commands.map DMLCommand.sql = others.map DMLCommand.sql ↔
        command.sql = otherCommand.sql) := by
  rcases map_eq_ok mapped with ⟨command, commandOk, rfl⟩
  rcases map_eq_ok otherMapped with ⟨otherCommand, otherCommandOk, rfl⟩
  exact ⟨command, otherCommand, commandOk, otherCommandOk, by simp⟩

omit reads valid same in
/-- A method's own compiler does the work of an accepted request. -/
theorem compile_single {method : Method} {canonical : String} {commands : List DMLCommand}
    (found : compiler.settings.layout canonical = some layout)
    (compiled : compiler.compile method canonical input context = .ok commands) :
    (method = .put → (compiler.put layout input context).map (fun command => [command]) =
      .ok commands) ∧
    (method = .get → (compiler.get layout input context).map (fun command => [command]) =
      .ok commands) ∧
    (method = .patch → (compiler.patch layout input context).map (fun command => [command]) =
      .ok commands) ∧
    (method = .delete → (compiler.delete layout input context).map (fun command => [command]) =
      .ok commands) ∧ method ≠ .atomicClaim := by
  unfold compile at compiled
  rw [found] at compiled
  split at compiled
  · exact nomatch compiled
  · cases method <;> simp_all

omit reads valid same in
theorem mapM_sql {items others : List Json} {f : Json → Compiled DMLCommand}
    {commands otherCommands : List DMLCommand} (related : List.Forall₂ SameItem items others)
    (compiled : items.mapM f = .ok commands) (otherCompiled : others.mapM f = .ok otherCommands)
    (each : ∀ {item other command otherCommand}, SameItem item other → f item = .ok command →
      f other = .ok otherCommand → command.sql = otherCommand.sql) :
    commands.map DMLCommand.sql = otherCommands.map DMLCommand.sql := by
  have mapped := mapM_eq_ok compiled
  have otherMapped := mapM_eq_ok otherCompiled
  clear compiled otherCompiled
  induction related generalizing commands otherCommands with
  | nil =>
      cases mapped
      cases otherMapped
      rfl
  | cons first _ induction =>
      cases mapped with
      | cons head tail =>
          cases otherMapped with
          | cons otherHead otherTail =>
              rw [List.map_cons, List.map_cons, each first head otherHead,
                induction tail otherTail]

omit reads valid in
theorem appends_text {commands others : List DMLCommand} {canonical : String}
    (found : compiler.settings.layout canonical = some layout)
    (compiled : compiler.compile .append canonical input context = .ok commands)
    (otherCompiled : compiler.compile .append canonical other context = .ok others) :
    commands.map DMLCommand.sql = others.map DMLCommand.sql := by
  have related := appended_same same
  unfold compile at compiled otherCompiled
  rw [found] at compiled otherCompiled
  dsimp only at compiled otherCompiled
  revert related
  split at compiled
  · exact nomatch compiled
  · split at otherCompiled
    · exact nomatch otherCompiled
    · generalize appended input = item at compiled
      generalize appended other = otherItem at otherCompiled
      rintro (⟨name, named, members⟩ | _)
      · have one : ∀ {item otherItem : Json}, SameItem item otherItem →
            (compiler.append layout (some item) context).map (fun command => [command]) =
              .ok commands →
            (compiler.append layout (some otherItem) context).map (fun command => [command]) =
              .ok others → commands.map DMLCommand.sql = others.map DMLCommand.sql := by
          intro item otherItem items mapped otherMapped
          rcases single_text mapped otherMapped with ⟨command, otherCommand, commandOk,
            otherCommandOk, texts⟩
          rw [texts]
          exact congrArg Sql.render (append_text (.some items) commandOk otherCommandOk)
        cases members with
        | same =>
            cases compiled.symm.trans otherCompiled
            rfl
        | record _ records => exact one (.record records) compiled otherCompiled
        | batch _ each =>
            dsimp only at compiled otherCompiled
            split at compiled
            · exact nomatch compiled
            · split at otherCompiled
              · exact nomatch otherCompiled
              · exact mapM_sql each compiled otherCompiled fun items itemOk otherItemOk =>
                  congrArg Sql.render (append_text (.some items) itemOk otherItemOk)
        | filter => simp at named
      · exact nomatch compiled

/-- The texts of two requests that differ only in values. -/
theorem compile_text_iff {method : Method} {canonical : String}
    {commands others : List DMLCommand}
    (found : compiler.settings.layout canonical = some layout)
    (documented : addressesByValue method input = true →
      reader.DocumentedIdentity layout (members (Json.get input "data")) ∧
        reader.DocumentedIdentity layout (members (Json.get other "data")))
    (compiled : compiler.compile method canonical input context = .ok commands)
    (otherCompiled : compiler.compile method canonical other context = .ok others) :
    commands.map DMLCommand.sql = others.map DMLCommand.sql ↔
      (addressesByValue method input = true →
        reader.operators (addressed method layout input) =
          reader.operators (addressed method layout other)) := by
  rcases compile_single found compiled with ⟨put, get, patch, delete, single⟩
  rcases compile_single found otherCompiled with ⟨otherPut, otherGet, otherPatch, otherDelete, _⟩
  cases method with
  | put =>
      rcases single_text (put rfl) (otherPut rfl) with ⟨command, otherCommand, commandOk,
        otherCommandOk, texts⟩
      rw [texts]
      exact put_text_iff reads valid same documented commandOk otherCommandOk
  | get =>
      rcases single_text (get rfl) (otherGet rfl) with ⟨command, otherCommand, commandOk,
        otherCommandOk, texts⟩
      have equal := get_text reads valid same commandOk otherCommandOk
      simp [texts, DMLCommand.sql, equal, addressesByValue]
  | patch =>
      rcases single_text (patch rfl) (otherPatch rfl) with ⟨command, otherCommand, commandOk,
        otherCommandOk, texts⟩
      have equal := patch_text reads valid same commandOk otherCommandOk
      simp [texts, DMLCommand.sql, equal, addressesByValue]
  | delete =>
      rcases single_text (delete rfl) (otherDelete rfl) with ⟨command, otherCommand, commandOk,
        otherCommandOk, texts⟩
      have equal := delete_text reads valid same commandOk otherCommandOk
      simp [texts, DMLCommand.sql, equal, addressesByValue]
  | append =>
      have texts := appends_text same found compiled otherCompiled
      simp [texts, addressesByValue]
  | atomicClaim => exact absurd rfl single

end Requests

end DMLCompiler

/-! ## Text without values -/

/-- Values never shape the text of a query. They do not shape that of a
mutation either, except that a put which finds its record by value writes the
operators that its identity values name. -/
theorem text_value_free_iff {translator : PostgreSQLQueryTranslator} {compiler : DMLCompiler}
    {canonical : String} {layout : ResourceLayout} {reader : FilterReader}
    (reads : ReadsFilters reader layout compiler.parseFilter)
    (found : compiler.settings.layout canonical = some layout)
    (valid : layout.check = .ok ()) :
    (∀ {plan otherPlan : Plan} {context : TranslationContext}
      {compiled otherCompiled : CompiledQuery},
      plan.operation.SameShape otherPlan.operation →
      plan.emptyResult = otherPlan.emptyResult →
      translator.compile plan context = .ok compiled →
      translator.compile otherPlan context = .ok otherCompiled →
      compiled.sql = otherCompiled.sql) ∧
    (∀ {filter otherFilter changes otherChanges : Json.Object} {limit otherLimit : Nat}
      {context : OperationContext} {command otherCommand : DMLCommand},
      DMLCompiler.SameMember reader layout "where" (.object filter) (.object otherFilter) →
      SameRecord changes otherChanges →
      compiler.atomicClaim layout filter changes limit context = .ok command →
      compiler.atomicClaim layout otherFilter otherChanges otherLimit context =
        .ok otherCommand →
      command.sql = otherCommand.sql) ∧
    ∀ {method : Method} {input other : Json.Object} {context : OperationContext}
      {commands others : List DMLCommand},
      DMLCompiler.SameInput reader layout input other →
      (DMLCompiler.addressesByValue method input = true →
        reader.DocumentedIdentity layout (DMLCompiler.members (Json.get input "data")) ∧
        reader.DocumentedIdentity layout (DMLCompiler.members (Json.get other "data"))) →
      compiler.compile method canonical input context = .ok commands →
      compiler.compile method canonical other context = .ok others →
      (commands.map DMLCommand.sql = others.map DMLCommand.sql ↔
        (DMLCompiler.addressesByValue method input = true →
          reader.operators (DMLCompiler.addressed method layout input) =
            reader.operators (DMLCompiler.addressed method layout other))) := by
  refine ⟨?_, ?_, ?_⟩
  · intro plan otherPlan context compiled otherCompiled shapes empty accepted otherAccepted
    exact congrArg Sql.render (PostgreSQLQueryTranslator.compile_plan_command shapes empty
      accepted otherAccepted)
  · intro filter otherFilter changes otherChanges limit otherLimit context command otherCommand
      filters same compiled otherCompiled
    exact DMLCompiler.atomicClaim_text reads (columns_nodup valid) filters same compiled otherCompiled
  · intro method input other context commands others same documented compiled otherCompiled
    exact DMLCompiler.compile_text_iff reads valid same found documented compiled
      otherCompiled

theorem workUpdate_same {identity other : Json} (present : identity ≠ .null)
    (otherPresent : other ≠ .null) :
    DMLCompiler.SameInput dollarReader workLayout (workUpdate identity) (workUpdate other) := by
  have records : SameRecord
      [("id", identity), ("state", .string "ready"), ("priority", .int 1)]
      [("id", other), ("state", .string "ready"), ("priority", .int 1)] :=
    .cons ⟨rfl, by simp [present, otherPresent]⟩ (.cons ⟨rfl, Iff.rfl⟩ (.cons ⟨rfl, Iff.rfl⟩ .nil))
  exact .cons ⟨rfl, .same⟩ (.cons ⟨rfl, .record (by simp) records⟩ .nil)

def workPut (identity : Json) : Compiled (List DMLCommand) :=
  workCompiler.compile .put "structured:example.work" (workUpdate identity) workOperation

theorem workUpdate_accepted {identity : Json}
    (given : identity = .string "x" ∨ identity = .string "y" ∨
      identity = .object [("$gte", .string "x")]) : ∃ commands, workPut identity = .ok commands := by
  rcases given with rfl | rfl | rfl
  · exact ⟨_, rfl⟩
  · exact ⟨_, rfl⟩
  · exact ⟨_, rfl⟩

/-- Two updates of one shape: the identity of one is an object of operators. -/
theorem update_text_differs : ∃ commands others,
    DMLCompiler.SameInput dollarReader workLayout (workUpdate (.string "x"))
      (workUpdate (.object [("$gte", .string "x")])) ∧
    workPut (.string "x") = .ok commands ∧
    workPut (.object [("$gte", .string "x")]) = .ok others ∧
    commands.map DMLCommand.sql ≠ others.map DMLCommand.sql := by
  have same : DMLCompiler.SameInput dollarReader workLayout (workUpdate (.string "x"))
      (workUpdate (.object [("$gte", .string "x")])) := workUpdate_same (by simp) (by simp)
  rcases workUpdate_accepted (.inl rfl) with ⟨commands, compiled⟩
  rcases workUpdate_accepted (.inr (.inr rfl)) with ⟨others, otherCompiled⟩
  refine ⟨commands, others, same, compiled, otherCompiled, ?_⟩
  have valid : workLayout.check = .ok () := by decide
  rw [ne_eq, DMLCompiler.compile_text_iff (dollarFilter_reads workLayout) valid same rfl
    (fun _ => by decide) compiled otherCompiled]
  decide

def workEquals (value : Int) : Plan :=
  PostgreSQLQueryTranslator.workScan
    (.binary .eq PostgreSQLQueryTranslator.priority (.literal (.int value)))

def workQuery (value : Int) : Compiled CompiledQuery :=
  PostgreSQLQueryTranslator.workTranslator.compile (workEquals value)
    PostgreSQLQueryTranslator.workContext

theorem workEquals_accepted (value : Int) : ∃ compiled, workQuery value = .ok compiled :=
  ⟨_, rfl⟩

theorem workEquals_same (value other : Int) :
    (workEquals value).operation.SameShape (workEquals other).operation where
  kind := rfl
  targets := rfl
  joins := ⟨rfl, nofun⟩
  filter := ⟨rfl, by
    intro inner otherInner given otherGiven
    cases given
    cases otherGiven
    exact .binary .field .literal⟩
  projection := ⟨rfl, nofun⟩
  includeTotal := rfl
  resultShape := rfl
  grouping := ⟨rfl, nofun⟩
  aggregates := ⟨rfl, nofun⟩
  order := ⟨rfl, nofun⟩
  cursor := rfl
  pointInTime := rfl
  consistency := rfl
  budget := rfl
  traversal_present := rfl
  traversal := nofun

/-- Two scans by a number have one text, and so have two updates by a scalar. -/
theorem text_value_free_work :
    (∃ compiled otherCompiled, workQuery 1 = .ok compiled ∧ workQuery 2 = .ok otherCompiled ∧
      compiled.sql = otherCompiled.sql) ∧
    ∃ commands others, workPut (.string "x") = .ok commands ∧
      workPut (.string "y") = .ok others ∧
      commands.map DMLCommand.sql = others.map DMLCommand.sql := by
  have found : workCompiler.settings.layout "structured:example.work" = some workLayout := rfl
  have valid : workLayout.check = .ok () := by decide
  rcases text_value_free_iff (dollarFilter_reads workLayout) found valid with ⟨queries, _, mutations⟩
  constructor
  · rcases workEquals_accepted 1 with ⟨compiled, accepted⟩
    rcases workEquals_accepted 2 with ⟨otherCompiled, otherAccepted⟩
    have empty : (workEquals 1).emptyResult = (workEquals 2).emptyResult := rfl
    exact ⟨compiled, otherCompiled, accepted, otherAccepted,
      queries (workEquals_same 1 2) empty accepted otherAccepted⟩
  · have same : DMLCompiler.SameInput dollarReader workLayout (workUpdate (.string "x"))
        (workUpdate (.string "y")) :=
      workUpdate_same (by simp) (by simp)
    rcases workUpdate_accepted (.inl rfl) with ⟨commands, compiled⟩
    rcases workUpdate_accepted (.inr (.inl rfl)) with ⟨others, otherCompiled⟩
    exact ⟨commands, others, compiled, otherCompiled,
      (mutations same (fun _ => by decide) compiled otherCompiled).mpr fun _ => by decide⟩

end MeridianPostgreSQL.Query
