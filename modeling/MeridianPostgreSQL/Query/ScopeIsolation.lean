import MeridianPostgreSQL.Foundation.OwnedRows
import MeridianPostgreSQL.Migration.DeclaredRelations
import MeridianPostgreSQL.Query.PutModes

/-! # Scope isolation

Structured requests of many tenants on one table. What a request answers and
changes depends on the rows of its tenant and scope only, so over any run the
requests of the others can be left out. -/

namespace MeridianPostgreSQL.Query

open Settings Schema
open VersionedRecords OwnedRows

/-! ## Requests -/

namespace DMLCompiler

/-- The condition of a get. -/
def getCondition (compiler : DMLCompiler) (layout : ResourceLayout) (context : OperationContext)
    (input : Json.Object) : Compiled DMLStatement :=
  match Json.get input "where" with
  | some (.object filter) => compiler.condition layout filter context "t"
  | _ => .error (.type "structured.get where must be an object")

/-- At most two rows are read, so that one can be told from several. -/
theorem get_eq (compiler : DMLCompiler) (layout : ResourceLayout) (context : OperationContext)
    (input : Json.Object) : (compiler.get layout input context).map DMLCommand.statement =
      (compiler.getCondition layout context input).map fun condition =>
        ⟨[Piece.text "SELECT "] ++ returning layout "t" ++
          [Piece.text " FROM "] ++ compiler.table layout ++
          [Piece.text " AS t WHERE "] ++ condition.command ++ [Piece.text " LIMIT 2"],
          condition.parameters⟩ := by
  unfold get getCondition
  cases Json.get input "where" with
  | none => rfl
  | some filter =>
      cases filter with
      | object filter =>
          simp only [bind_map]
          cases compiler.condition layout filter context "t" <;> rfl
      | _ => rfl

end DMLCompiler

/-- The condition that a statement evaluates on rows. -/
def Mutation.tested : Mutation → Option DMLStatement
  | .insert _ _ _ => none
  | .update _ condition _ => some condition
  | .replace _ condition => some condition
  | .delete condition _ => some condition
  | .claim _ _ condition _ => some condition
  | .importRow _ _ _ _ _ => none

/-- A server on which a condition can also raise on a row. -/
structure ScopedServer (Value : Type) extends PutServer Value where
  fails : DMLStatement → Record Value → Bool

/-- What a caller sees of a structured request. -/
inductive Answer (Value : Type) where
  | invalid
  | returned (rows : List (Record Value))
  | conflict
  | refused

/-- `_execute_dml`. A request that raises leaves the table as it is. -/
def Reply.answer {Value : Type} (conditional : Bool) (table : Table Value) :
    Reply Value → Answer Value × Table Value
  | .completed after returned =>
      if conditional = true ∧ returned.isEmpty = true then (.conflict, table)
      else (.returned returned, after)
  | .duplicate => (.conflict, table)
  | .refused => (.refused, table)

def Request.isConditional (request : Request) : Bool :=
  match request.method with
  | .put => Query.isConditional request.input
  | _ => (member request.input "expectedVersion").isSome

namespace ScopedServer

variable {Value : Type} [DecidableEq Value] (server : ScopedServer Value)

/-- The statements of structured requests. -/
def execute (keys : List String) (mutation : Mutation) (table : Table Value) : Reply Value :=
  if (mutation.tested.any fun condition => table.any (server.fails condition)) = true then .refused
  else
    match mutation with
    | .delete condition expected =>
        if server.refuses condition = true ∨ expected.all server.readsVersion = false then .refused
        else .completed
          (table.filter fun record => !required server.toEngine condition expected record)
          (table.filter (required server.toEngine condition expected))
    | other => server.perform keys other table

/-- What is read of a condition. -/
def select (condition : DMLStatement) (table : Table Value) : Answer Value :=
  if server.refuses condition = true ∨ table.any (server.fails condition) = true then .refused
  else
    let rows := (table.filter (server.holds condition)).take 2
    if 1 < rows.length then .conflict else .returned rows

/-- A structured request from its input to its answer. -/
def serve (compiler : DMLCompiler) (layout : ResourceLayout) (request : Request)
    (table : Table Value) : Answer Value × Table Value :=
  if request.method = .get then
    match compiler.getCondition layout request.context request.input with
    | .error _ => (.invalid, table)
    | .ok condition => (server.select condition table, table)
  else
    match request.mutation compiler layout with
    | .error _ => (.invalid, table)
    | .ok mutation =>
        (server.execute (primaryKey compiler.settings layout) mutation table).answer
          request.isConditional table

/-! ## Owners -/

/-- The scope columns of a row. -/
def ownerOf (compiler : DMLCompiler) (record : Record Value) : Option (List Value) :=
  some (compiler.settings.scopeColumns.map record.contents)

/-- Whom a request is for, unless its scope is not accepted. -/
def issuer (compiler : DMLCompiler) (context : OperationContext) : Option (List Value) :=
  (compiler.scopeValues context).toOption.map fun scope =>
    scope.map fun entry => server.store entry.1 (ownerParameter entry)

def issued (compiler : DMLCompiler) (layout : ResourceLayout) (request : Request) :
    Issued (Record Value) (Option (List Value)) (Answer Value) :=
  ⟨server.issuer compiler request.context, server.serve compiler layout request⟩

/-- A run of requests, with the answers that each owner gets. -/
def serveAll (compiler : DMLCompiler) (layout : ResourceLayout) (table : Table Value)
    (requests : List Request) : List (Option (List Value) × Answer Value) × Table Value :=
  run table (requests.map (server.issued compiler layout))

end ScopedServer

/-! ## Laws of the server -/

/-- A compiled filter, as a condition holds it. -/
def CompiledFilter (layout : ResourceLayout) (filter : DMLStatement) : Prop :=
  ∃ expression compiled, Query.compile (conditionTargets layout "t") .condition [] expression =
    .ok compiled ∧ filter = plainParameters compiled

/-- The columns of the unique indexes that the schema compiler makes. -/
def uniqueColumns (settings : PostgreSQLSettings) (layout : ResourceLayout) : List (List String) :=
  ((declaredIndexes settings layout).filter fun index => index.2.unique).map fun index =>
    index.2.columns

/-- How PostgreSQL reads a scope beside a filter, and what its unique indexes
keep apart. A filter raises only on rows of the scope. -/
structure ScopedServer.Lawful {Value : Type} (server : ScopedServer Value)
    (settings : PostgreSQLSettings) (layout : ResourceLayout) : Prop where
  scope : ∀ scope record, scope ≠ [] →
    (server.holds (DMLCompiler.scopeCondition "t" scope) record = true ↔
      ∀ entry ∈ scope, record.contents entry.1 = server.store entry.1 (ownerParameter entry))
  scopeRaises : ∀ scope record,
    server.fails (DMLCompiler.scopeCondition "t" scope) record = false
  both : ∀ scope filter record, CompiledFilter layout filter →
    (server.holds (conjunction [DMLCompiler.scopeCondition "t" scope, filter]) record = true ↔
      server.holds (DMLCompiler.scopeCondition "t" scope) record = true ∧
        server.holds filter record = true)
  bothRaise : ∀ scope filter record, CompiledFilter layout filter →
    server.fails (conjunction [DMLCompiler.scopeCondition "t" scope, filter]) record = true →
      server.holds (DMLCompiler.scopeCondition "t" scope) record = true
  unique : ∀ table, server.unique table = true ↔
    ∀ columns ∈ uniqueColumns settings layout, table.Pairwise fun left right =>
      ¬ ∀ column ∈ columns,
        left.contents column ≠ server.null ∧ left.contents column = right.contents column

/-! ## Conditions within a scope -/

section Conditions

variable {Value : Type} {server : ScopedServer Value} {compiler : DMLCompiler}
  {layout : ResourceLayout} {context : OperationContext} {scope : List (String × String)}
  {filter : Json.Object} {condition : DMLStatement} {record : Record Value}

theorem scope_nonempty (scopeOk : compiler.scopeValues context = .ok scope) : scope ≠ [] := by
  intro empty
  have columns := scope_columns scopeOk
  rw [empty] at columns
  cases columns

theorem owner_iff (scopeOk : compiler.scopeValues context = .ok scope) :
    (∀ entry ∈ scope, record.contents entry.1 = server.store entry.1 (ownerParameter entry)) ↔
      ScopedServer.ownerOf compiler record = server.issuer compiler context := by
  unfold ScopedServer.ownerOf ScopedServer.issuer
  rw [scopeOk, ← scope_columns scopeOk, List.map_map]
  simp [Except.toOption, List.map_inj_left]

theorem condition_owner (laws : server.Lawful compiler.settings layout)
    (compiled : compiler.condition layout filter context "t" = .ok condition) :
    (server.holds condition record = true →
      ScopedServer.ownerOf compiler record = server.issuer compiler context) ∧
    (server.fails condition record = true →
      ScopedServer.ownerOf compiler record = server.issuer compiler context) := by
  obtain ⟨scope, scopeOk, compiled⟩ := bind_eq_ok compiled
  obtain ⟨expression, _, compiled⟩ := bind_eq_ok compiled
  have owned : server.holds (DMLCompiler.scopeCondition "t" scope) record = true →
      ScopedServer.ownerOf compiler record = server.issuer compiler context := fun within =>
    (owner_iff scopeOk).mp ((laws.scope scope record (scope_nonempty scopeOk)).mp within)
  cases expression with
  | none =>
      cases compiled
      refine ⟨owned, fun raised => ?_⟩
      rw [laws.scopeRaises] at raised
      cases raised
  | some expression =>
      obtain ⟨statement, statementOk, compiled⟩ := bind_eq_ok compiled
      cases compiled
      have parsed : CompiledFilter layout (plainParameters statement) :=
        ⟨expression, statement, statementOk, rfl⟩
      exact ⟨fun passes => owned ((laws.both scope _ record parsed).mp passes).1,
        fun raised => owned (laws.bothRaise scope _ record parsed raised)⟩

end Conditions

/-! ## Mutations within a scope -/

/-- A mutation inserts into the scope of its context, or tests for it. -/
def Mutation.Within (compiler : DMLCompiler) (layout : ResourceLayout)
    (context : OperationContext) : Mutation → Prop
  | .insert columns values _ => ∃ scope, compiler.scopeValues context = .ok scope ∧
      ∃ fields : List (String × DMLStatement),
        columns = compiler.settings.scopeColumns ++ fields.map Prod.fst ∧
        values = DMLCompiler.scopeParameters scope ++ fields.map Prod.snd
  | .update _ condition _ => ∃ filter,
      compiler.condition layout filter context "t" = .ok condition
  | .replace _ condition => ∃ filter,
      compiler.condition layout filter context "t" = .ok condition
  | .delete condition _ => ∃ filter,
      compiler.condition layout filter context "t" = .ok condition
  | _ => False

section Within

variable {compiler : DMLCompiler} {layout : ResourceLayout} {context : OperationContext}
  {mutation : Mutation}

theorem recordMutation_within {mode : PutMode} {expected : Option Json} {data : Json.Object}
    (compiled : compiler.recordMutation layout context mode expected data = .ok mutation) :
    mutation.Within compiler layout context := by
  obtain ⟨scope, scopeOk, compiled⟩ := bind_eq_ok compiled
  obtain ⟨values, _, compiled⟩ := bind_eq_ok compiled
  cases expected with
  | some version =>
      unfold DMLCompiler.conditionalPutMutation at compiled
      dsimp only at compiled
      split at compiled
      · cases compiled
      · obtain ⟨changes, _, compiled⟩ := bind_eq_ok compiled
        obtain ⟨condition, conditionOk, compiled⟩ := bind_eq_ok compiled
        cases compiled
        exact ⟨_, conditionOk⟩
  | none =>
      obtain ⟨keys, _, compiled⟩ := bind_eq_ok compiled
      cases mode with
      | update =>
          obtain ⟨changes, _, compiled⟩ := bind_eq_ok compiled
          obtain ⟨identity, _, compiled⟩ := bind_eq_ok compiled
          obtain ⟨condition, conditionOk, compiled⟩ := bind_eq_ok compiled
          cases compiled
          exact ⟨_, conditionOk⟩
      | upsert =>
          cases compiled
          exact ⟨scope, scopeOk, values, rfl, rfl⟩
      | ifAbsent =>
          cases compiled
          exact ⟨scope, scopeOk, values, rfl, rfl⟩

theorem putMutation_within {input : Json.Object}
    (compiled : compiler.putMutation layout context input = .ok mutation) :
    mutation.Within compiler layout context := by
  obtain ⟨mode, _, compiled⟩ := bind_eq_ok compiled
  obtain ⟨expected, _, compiled⟩ := bind_eq_ok compiled
  split at compiled
  · obtain ⟨_, _, compiled⟩ := bind_eq_ok compiled
    obtain ⟨_, _, compiled⟩ := bind_eq_ok compiled
    exact recordMutation_within compiled
  · cases compiled

theorem patchMutation_within {input : Json.Object}
    (compiled : compiler.patchMutation layout context input = .ok mutation) :
    mutation.Within compiler layout context := by
  unfold DMLCompiler.patchMutation at compiled
  split at compiled
  · obtain ⟨changes, _, compiled⟩ := bind_eq_ok compiled
    obtain ⟨condition, conditionOk, compiled⟩ := bind_eq_ok compiled
    cases compiled
    exact ⟨_, conditionOk⟩
  · cases compiled

theorem deleteMutation_within {input : Json.Object}
    (compiled : compiler.deleteMutation layout context input = .ok mutation) :
    mutation.Within compiler layout context := by
  unfold DMLCompiler.deleteMutation at compiled
  split at compiled
  · obtain ⟨condition, conditionOk, compiled⟩ := bind_eq_ok compiled
    cases compiled
    exact ⟨_, conditionOk⟩
  · cases compiled

theorem Request.mutation_within {request : Request}
    (compiled : request.mutation compiler layout = .ok mutation) :
    mutation.Within compiler layout request.context := by
  unfold Request.mutation at compiled
  split at compiled
  · exact putMutation_within compiled
  · exact patchMutation_within compiled
  · exact deleteMutation_within compiled
  · cases compiled

variable {Value : Type} {server : ScopedServer Value}

/-- An inserted row belongs to the scope of its context. -/
theorem inserted_owner (distinct : compiler.settings.scopeKeys.Nodup)
    {scope : List (String × String)} (scopeOk : compiler.scopeValues context = .ok scope)
    (fields : List (String × DMLStatement)) :
    ScopedServer.ownerOf compiler (insertedRecord server.toEngine
        (compiler.settings.scopeColumns ++ fields.map Prod.fst)
        (DMLCompiler.scopeParameters scope ++ fields.map Prod.snd)) =
      server.issuer compiler context := by
  apply (owner_iff scopeOk).mp
  intro entry listed
  have unique : (scope.map Prod.fst).Nodup := by
    rw [scope_columns scopeOk]
    exact Migration.scopeColumns_nodup distinct
  have found : scope.lookup entry.1 = some entry.2 := by
    clear scopeOk
    induction scope with
    | nil => cases listed
    | cons first rest induction =>
        rw [List.map_cons, List.nodup_cons] at unique
        rw [List.lookup_cons]
        rcases List.mem_cons.mp listed with rfl | later
        · simp
        · have different : (entry.1 == first.1) = false := by
            apply beq_false_of_ne
            intro same
            exact unique.1 (same ▸ List.mem_map_of_mem later)
          rw [different]
          exact induction later unique.2
  unfold insertedRecord
  dsimp only
  rw [inserted_values scopeOk, List.lookup_append, lookup_map_value, found]
  rfl

end Within

/-! ## Rows of one scope -/

section Execution

variable {Value : Type} [DecidableEq Value] {server : ScopedServer Value}
  {compiler : DMLCompiler} {layout : ResourceLayout} {table : Table Value}
  {own : Option (List Value)}

abbrev ownRows (compiler : DMLCompiler) (own : Option (List Value)) (table : Table Value) :
    Table Value := mine (ScopedServer.ownerOf compiler) own table

omit [DecidableEq Value] in
theorem owner_of_key {left right : Record Value}
    (same : recordKey (primaryKey compiler.settings layout) left =
      recordKey (primaryKey compiler.settings layout) right) :
    ScopedServer.ownerOf compiler left = ScopedServer.ownerOf compiler right := by
  unfold recordKey primaryKey at same
  rw [List.map_append, List.map_append] at same
  exact congrArg some (List.append_inj_left same (by simp))

/-- Unique indexes begin with the scope, so rows of different scopes never
meet in one. -/
theorem unique_scoped (laws : server.Lawful compiler.settings layout)
    (accepted : compiler.settings.check = .ok ()) (listed : layout ∈ compiler.settings.resources) :
    server.unique table = true ↔ ∀ own, server.unique (ownRows compiler own table) = true := by
  have begins : ∀ columns ∈ uniqueColumns compiler.settings layout,
      compiler.settings.scopeColumns ⊆ columns := by
    intro columns inside
    obtain ⟨entry, member, rfl⟩ := List.mem_map.mp inside
    obtain ⟨made, unique⟩ := List.mem_filter.mp member
    obtain ⟨index, declared, _, defined⟩ := Migration.declaredIndexes_cases made
    have tree := Migration.unique_btree accepted listed declared
      (Migration.indexDefinition_unique defined unique)
    rw [indexDefinition, tree] at defined
    rw [← Option.some.inj defined]
    exact List.subset_append_left _ _
  have pairs : ∀ columns ∈ uniqueColumns compiler.settings layout, ∀ left right : Record Value,
      ScopedServer.ownerOf compiler left ≠ ScopedServer.ownerOf compiler right →
      ¬ ∀ column ∈ columns,
        left.contents column ≠ server.null ∧ left.contents column = right.contents column := by
    intro columns inside left right different agree
    apply different
    unfold ScopedServer.ownerOf
    congr 1
    exact List.map_congr_left fun column owned => (agree column (begins columns inside owned)).2
  rw [laws.unique]
  constructor
  · intro whole own
    rw [laws.unique]
    exact fun columns inside =>
      (pairwise_iff_mine (pairs columns inside)).mp (whole columns inside) own
  · intro each columns inside
    rw [pairwise_iff_mine (pairs columns inside)]
    exact fun own => (laws.unique _).mp (each own) columns inside

/-- How a statement ends on a table, and on the rows of one owner alone. -/
inductive Restricts (server : ScopedServer Value) (compiler : DMLCompiler)
    (own : Option (List Value)) (table : Table Value) : Reply Value → Reply Value → Prop
  | completed {after returned} (valid : server.unique after = true)
      (others : ∀ other, other ≠ own →
        ownRows compiler other after = ownRows compiler other table) :
      Restricts server compiler own table (.completed after returned)
        (.completed (ownRows compiler own after) returned)
  | duplicate : Restricts server compiler own table .duplicate .duplicate
  | refused : Restricts server compiler own table .refused .refused

section Restricted

variable (laws : server.Lawful compiler.settings layout)
  (accepted : compiler.settings.check = .ok ()) (listed : layout ∈ compiler.settings.resources)
  (start : server.unique table = true)

include laws accepted listed start

theorem settle_restricts {after : Table Value} {returned : List (Record Value)}
    (others : ∀ other, other ≠ own →
      ownRows compiler other after = ownRows compiler other table) :
    Restricts server compiler own table (server.settle after returned)
      (server.settle (ownRows compiler own after) returned) := by
  have same : server.unique after = server.unique (ownRows compiler own after) := by
    rw [Bool.eq_iff_iff]
    constructor
    · intro whole
      exact (unique_scoped laws accepted listed).mp whole own
    · intro mine
      rw [unique_scoped laws accepted listed]
      intro other
      by_cases equal : other = own
      · rw [equal]
        exact mine
      · rw [others other equal]
        exact (unique_scoped laws accepted listed).mp start other
  unfold PutServer.settle
  rw [← same]
  split
  · exact .completed ‹_› others
  · exact .duplicate

/-- Rows of one owner that change, and keep their owner. -/
theorem change_restricts {test : Record Value → Bool} {change : Record Value → Record Value}
    {returned : List (Record Value)}
    (owned : ∀ record, test record = true → ScopedServer.ownerOf compiler record = own)
    (kept : ∀ record, test record = true →
      ScopedServer.ownerOf compiler (change record) = ScopedServer.ownerOf compiler record) :
    Restricts server compiler own table
      (server.settle (table.map fun record => if test record then change record else record)
        returned)
      (server.settle ((ownRows compiler own table).map fun record =>
        if test record then change record else record) returned) := by
  have keeps : ∀ record ∈ table, ScopedServer.ownerOf compiler
      (if test record then change record else record) = ScopedServer.ownerOf compiler record := by
    intro record _
    split
    · exact kept record ‹_›
    · rfl
  rw [← mine_map keeps]
  apply settle_restricts laws accepted listed start
  intro other different
  apply mine_map_other keeps
  intro record _ held
  split
  · exact absurd (held.symm.trans (owned record ‹_›)) different
  · rfl

theorem insertRow_restricts {new : Record Value}
    {upsert : Option (List String × List String)}
    (owner : ScopedServer.ownerOf compiler new = own)
    (outside : ∀ keys taken, upsert = some (keys, taken) →
      OutsideKey compiler.settings layout taken) :
    Restricts server compiler own table
      (server.insertRow (primaryKey compiler.settings layout) new upsert table)
      (server.insertRow (primaryKey compiler.settings layout) new upsert
        (ownRows compiler own table)) := by
  have ofKey : ∀ record, decide (recordKey (primaryKey compiler.settings layout) record =
      recordKey (primaryKey compiler.settings layout) new) = true →
      ScopedServer.ownerOf compiler record = own := by
    intro record same
    rw [decide_eq_true_iff] at same
    rw [owner_of_key same, owner]
  have found : recordAt (primaryKey compiler.settings layout) (ownRows compiler own table)
      (recordKey (primaryKey compiler.settings layout) new) =
      recordAt (primaryKey compiler.settings layout) table
        (recordKey (primaryKey compiler.settings layout) new) :=
    find_mine fun record _ same => ofKey record same
  unfold PutServer.insertRow
  rw [found]
  split
  · have appended : ownRows compiler own table ++ [new] =
        ownRows compiler own (table ++ [new]) := by
      rw [ownRows, ownRows, mine_append]
      simp [mine, owner]
    rw [appended]
    apply settle_restricts laws accepted listed start
    intro other different
    rw [ownRows, mine_append]
    simp [mine, owner, different.symm]
  · exact .duplicate
  · rename_i old clauseKeys taken _
    have rewritten : ∀ rows : Table Value, (rows.map fun record =>
        if recordKey (primaryKey compiler.settings layout) record =
          recordKey (primaryKey compiler.settings layout) new then upserted taken new record
        else record) = rows.map fun record =>
          if decide (recordKey (primaryKey compiler.settings layout) record =
            recordKey (primaryKey compiler.settings layout) new) then upserted taken new record
          else record := by
      intro rows
      simp only [decide_eq_true_eq]
    rw [rewritten, rewritten]
    apply change_restricts laws accepted listed start ofKey
    intro record _
    exact owner_of_key (upserted_key (outside _ _ rfl) new record)

omit accepted listed in
/-- Rows of one owner that go. What is unique stays so without them. -/
theorem remove_restricts {test : Record Value → Bool} {returned : List (Record Value)}
    (owned : ∀ record, test record = true → ScopedServer.ownerOf compiler record = own) :
    Restricts server compiler own table
      (.completed (table.filter fun record => !test record) returned)
      (.completed ((ownRows compiler own table).filter fun record => !test record) returned) := by
  rw [← mine_filter]
  refine .completed ?_ ?_
  · rw [laws.unique] at start ⊢
    exact fun columns inside => (start columns inside).sublist List.filter_sublist
  · intro other different
    rw [ownRows, mine_filter]
    apply List.filter_eq_self.mpr
    intro record inside
    cases chosen : test record with
    | false => rfl
    | true => exact absurd ((mem_mine.mp inside).2.symm.trans (owned record chosen)) different

omit laws accepted listed start in
/-- Rows on which a condition raises are rows of the owner. -/
theorem tested_restricts {condition : DMLStatement} {whole alone : Reply Value}
    (owned : ∀ record, server.fails condition record = true →
      ScopedServer.ownerOf compiler record = own)
    (inside : Restricts server compiler own table whole alone) :
    Restricts server compiler own table
      (if table.any (server.fails condition) = true then .refused else whole)
      (if (ownRows compiler own table).any (server.fails condition) = true then .refused
        else alone) := by
  rw [any_mine fun record _ => owned record]
  split
  · exact .refused
  · exact inside

theorem perform_restricts {mutation : Mutation} {context : OperationContext}
    (within : mutation.Within compiler layout context)
    (sound : mutation.Sound compiler.settings layout) :
    Restricts server compiler (server.issuer compiler context) table
      (server.execute (primaryKey compiler.settings layout) mutation table)
      (server.execute (primaryKey compiler.settings layout) mutation
        (ownRows compiler (server.issuer compiler context) table)) := by
  have distinct := (settings_checked accepted).scopeKeys
  cases mutation with
  | insert columns values upsert =>
      obtain ⟨scope, scopeOk, fields, rfl, rfl⟩ := within
      simp only [ScopedServer.execute, Mutation.tested, Option.any_none, Bool.false_eq_true,
        if_false, PutServer.perform]
      split
      · exact .refused
      · exact insertRow_restricts laws accepted listed start
          (inserted_owner distinct scopeOk fields) fun keys taken same => (sound keys taken same).2
  | update assignments condition expected =>
      obtain ⟨filter, compiled⟩ := within
      have owned := fun record => @condition_owner _ _ _ _ _ _ _ record laws compiled
      have chosen : ∀ record, required server.toEngine condition expected record = true →
          ScopedServer.ownerOf compiler record = server.issuer compiler context := fun record both =>
        (owned record).1 (Bool.and_eq_true_iff.mp both).1
      refine tested_restricts (fun record => (owned record).2) ?_
      dsimp only [PutServer.perform]
      rw [filter_mine fun record _ => chosen record]
      split
      · exact .refused
      · exact change_restricts laws accepted listed start chosen fun record _ =>
          owner_of_key (assignedContents_key sound record)
  | replace assignments condition =>
      obtain ⟨filter, compiled⟩ := within
      have owned := fun record => @condition_owner _ _ _ _ _ _ _ record laws compiled
      refine tested_restricts (fun record => (owned record).2) ?_
      dsimp only [PutServer.perform]
      rw [filter_mine fun record _ => (owned record).1]
      split
      · exact .refused
      · exact change_restricts laws accepted listed start (fun record => (owned record).1)
          fun record _ => owner_of_key (replaced_key sound record)
  | delete condition expected =>
      obtain ⟨filter, compiled⟩ := within
      have owned := fun record => @condition_owner _ _ _ _ _ _ _ record laws compiled
      have chosen : ∀ record, required server.toEngine condition expected record = true →
          ScopedServer.ownerOf compiler record = server.issuer compiler context := fun record both =>
        (owned record).1 (Bool.and_eq_true_iff.mp both).1
      refine tested_restricts (fun record => (owned record).2) ?_
      dsimp only
      rw [filter_mine fun record _ => chosen record]
      split
      · exact .refused
      · exact remove_restricts laws start chosen
  | claim assignments keys condition limit => cases within
  | importRow columns values keys taken first => cases within

omit laws accepted listed in
/-- The answer of a statement that restricts. -/
theorem answer_restricts {conditional : Bool} {whole alone : Reply Value}
    (restricts : Restricts server compiler own table whole alone) :
    server.unique (whole.answer conditional table).2 = true ∧
      (whole.answer conditional table).1 =
        (alone.answer conditional (ownRows compiler own table)).1 ∧
      ownRows compiler own (whole.answer conditional table).2 =
        (alone.answer conditional (ownRows compiler own table)).2 ∧
      ∀ other, other ≠ own → ownRows compiler other (whole.answer conditional table).2 =
        ownRows compiler other table := by
  cases restricts with
  | completed valid others =>
      unfold Reply.answer
      dsimp only
      split
      · exact ⟨start, rfl, rfl, fun _ _ => rfl⟩
      · exact ⟨valid, rfl, rfl, others⟩
  | duplicate => exact ⟨start, rfl, rfl, fun _ _ => rfl⟩
  | refused => exact ⟨start, rfl, rfl, fun _ _ => rfl⟩

end Restricted

omit [DecidableEq Value] in
theorem select_own (laws : server.Lawful compiler.settings layout) {context : OperationContext}
    {filter : Json.Object} {condition : DMLStatement}
    (compiled : compiler.condition layout filter context "t" = .ok condition) [DecidableEq Value] :
    server.select condition (ownRows compiler (server.issuer compiler context) table) =
      server.select condition table := by
  have owned := fun record => @condition_owner _ _ _ _ _ _ _ record laws compiled
  unfold ScopedServer.select
  rw [any_mine fun record _ => (owned record).2, filter_mine fun record _ => (owned record).1]

theorem serve_confined (laws : server.Lawful compiler.settings layout)
    (accepted : compiler.settings.check = .ok ()) (listed : layout ∈ compiler.settings.resources)
    (request : Request) :
    Confined (ScopedServer.ownerOf compiler) (server.unique · = true)
      (server.issuer compiler request.context) (server.serve compiler layout request) := by
  by_cases reads : request.method = .get
  · have same : ∀ rows : Table Value, (server.serve compiler layout request rows).2 = rows ∧
        (server.serve compiler layout request rows).1 = (server.serve compiler layout request
          (ownRows compiler (server.issuer compiler request.context) rows)).1 := by
      intro rows
      unfold ScopedServer.serve
      rw [if_pos reads, if_pos reads]
      cases compiled : compiler.getCondition layout request.context request.input with
      | error error => exact ⟨rfl, rfl⟩
      | ok condition =>
          refine ⟨rfl, ?_⟩
          unfold DMLCompiler.getCondition at compiled
          split at compiled
          · exact (select_own laws compiled).symm
          · cases compiled
    exact {
      keeps := fun valid => by
        rw [(same _).1]
        exact valid
      answers := fun _ => (same _).2
      changes := fun _ => by rw [(same _).1, (same _).1]
      others := fun _ _ _ => by rw [(same _).1] }
  · cases compiled : request.mutation compiler layout with
    | error error =>
        have same : ∀ rows : Table Value,
            server.serve compiler layout request rows = (.invalid, rows) := by
          intro rows
          unfold ScopedServer.serve
          rw [if_neg reads, compiled]
        exact {
          keeps := fun valid => by
            rw [same]
            exact valid
          answers := fun _ => by rw [same, same]
          changes := fun _ => by rw [same, same]
          others := fun _ _ _ => by rw [same] }
    | ok mutation =>
        have same : ∀ rows : Table Value, server.serve compiler layout request rows =
            (server.execute (primaryKey compiler.settings layout) mutation rows).answer
              request.isConditional rows := by
          intro rows
          unfold ScopedServer.serve
          rw [if_neg reads, compiled]
        have sound := Emits.sound ((settings_checked accepted).layouts layout listed)
          (mutation_emitted compiled)
        have step : ∀ {rows : Table Value}, server.unique rows = true → _ := fun valid =>
          @answer_restricts _ _ _ _ _ _ valid request.isConditional _ _
            (perform_restricts laws accepted listed valid (request.mutation_within compiled) sound)
        exact {
          keeps := fun valid => by
            rw [same]
            exact (step valid).1
          answers := fun valid => by
            rw [same, same]
            exact (step valid).2.1
          changes := fun valid => by
            rw [same, same]
            exact (step valid).2.2.1
          others := fun valid => by
            rw [same]
            exact (step valid).2.2.2 }

/-! ## Runs -/

/-- What the requests of a tenant and scope answer and leave is what they do
on its own rows alone, whatever others request in between. -/
theorem scope_isolation (laws : server.Lawful compiler.settings layout)
    (accepted : compiler.settings.check = .ok ()) (listed : layout ∈ compiler.settings.resources)
    (start : server.unique table = true) (requests : List Request) (own : Option (List Value)) :
    answersTo own (server.serveAll compiler layout table requests).1 =
        (server.serveAll compiler layout (ownRows compiler own table)
          (requests.filter fun request => server.issuer compiler request.context = own)).1 ∧
      ownRows compiler own (server.serveAll compiler layout table requests).2 =
        (server.serveAll compiler layout (ownRows compiler own table)
          (requests.filter fun request => server.issuer compiler request.context = own)).2 := by
  have confined : ∀ issued ∈ requests.map (server.issued compiler layout),
      Confined (ScopedServer.ownerOf compiler) (server.unique · = true) issued.own
        issued.operate := by
    intro issued member
    obtain ⟨request, _, rfl⟩ := List.mem_map.mp member
    exact serve_confined laws accepted listed request
  have alone : issuedBy own (requests.map (server.issued compiler layout)) =
      (requests.filter fun request => server.issuer compiler request.context = own).map
        (server.issued compiler layout) := List.filter_map
  have isolated : answersTo own _ = _ ∧ mine _ own _ = _ := noninterference confined start
  rw [alone] at isolated
  exact isolated

end Execution

/-! ## Two tenants -/

theorem comparedValues_owned (scope : List (String × String)) (rest : DMLStatement) :
    comparedValues (conjunction [DMLCompiler.scopeCondition "t" scope, rest]) =
      comparedValues (DMLCompiler.scopeCondition "t" scope) ++ comparedValues rest := by
  have names : namesOf (DMLCompiler.scopeCondition "t" scope).command =
      (scope.map Prod.fst).flatMap fun column => ["t", column] := by
    simp only [DMLCompiler.scopeCondition, namesOf_joined, List.flatMap_map]
    simp [namesOf, ident]
  have follow : ∀ (columns : List String) (later : List String), qualifiedColumns
      ((columns.flatMap fun column => ["t", column]) ++ later) =
        columns ++ qualifiedColumns later := by
    intro columns later
    induction columns with
    | nil => rfl
    | cons column rest induction =>
        rw [List.flatMap_cons]
        exact congrArg (column :: ·) induction
  have whole : namesOf (conjunction [DMLCompiler.scopeCondition "t" scope, rest]).command =
      ((scope.map Prod.fst).flatMap fun column => ["t", column]) ++ namesOf rest.command := by
    simp only [conjunction, List.map_cons, List.map_nil, namesOf_append, namesOf_joined,
      List.flatMap_cons, List.flatMap_nil, names]
    simp [namesOf]
  unfold comparedValues
  rw [whole, names, follow, qualifiedColumns_flatMap, ← List.zip_append (by
    simp [DMLCompiler.scopeCondition])]
  simp [conjunction, allParameters]

theorem comparedValues_scope (scope : List (String × String)) :
    comparedValues (DMLCompiler.scopeCondition "t" scope) =
      scope.map fun entry => (entry.1, some (.string entry.2)) := by
  have names : namesOf (DMLCompiler.scopeCondition "t" scope).command =
      (scope.map Prod.fst).flatMap fun column => ["t", column] := by
    simp only [DMLCompiler.scopeCondition, namesOf_joined, List.flatMap_map]
    simp [namesOf, ident]
  unfold comparedValues
  rw [names, qualifiedColumns_flatMap]
  simp [DMLCompiler.scopeCondition, boundScalar, scalarValue, isScalar, Function.comp_def,
    List.zip_map']

/-- The plain server, with the unique indexes of a layout. -/
def tenantServer (settings : PostgreSQLSettings) (layout : ResourceLayout) : ScopedServer Json where
  toPutServer := { plainServer with
    unique := fun table => decide (∀ columns ∈ uniqueColumns settings layout,
      table.Pairwise fun left right => ¬ ∀ column ∈ columns,
        left.contents column ≠ .null ∧ left.contents column = right.contents column) }
  fails := fun _ _ => false

theorem tenantServer_lawful (settings : PostgreSQLSettings) (layout : ResourceLayout) :
    (tenantServer settings layout).Lawful settings layout where
  scope := by
    intro scope record _
    simp only [tenantServer, plainServer, comparedValues_scope, List.all_map, List.all_eq_true,
      Function.comp_def, decide_eq_true_eq, Option.some.injEq]
    exact forall₂_congr fun entry _ => eq_comm
  scopeRaises := fun _ _ => rfl
  both := by
    intro scope filter record _
    simp only [tenantServer, plainServer, comparedValues_owned, List.all_append, Bool.and_eq_true]
  bothRaise := by
    intro scope filter record _ raised
    cases raised
  unique := fun _ => decide_eq_true_iff

/-- An item of another tenant. -/
def foreignRecord (state : String) (version : Int) : Record Json where
  contents := fun column =>
    if column = "__tenant" then .string "other" else (workRecord state version).contents column
  version := version

def foreignOperation : OperationContext := ⟨some "other", [("workspace", "main")]⟩

/-- Both tenants update an item of the same identity. -/
def tenantRequests : List Request :=
  [⟨.put, workUpdate (.string "x"), foreignOperation⟩,
    ⟨.put, workUpdate (.string "x"), workOperation⟩]

def tenantTable : Table Json := [foreignRecord "waiting" 7, workRecord "waiting" 3]

theorem tenants_isolated :
    answersTo (some [.string "tenant", .string "main"])
        ((tenantServer workSettings workLayout).serveAll workCompiler workLayout tenantTable
          tenantRequests).1 =
        ((tenantServer workSettings workLayout).serveAll workCompiler workLayout
          (ownRows workCompiler (some [.string "tenant", .string "main"]) tenantTable)
          (tenantRequests.filter fun request =>
            (tenantServer workSettings workLayout).issuer workCompiler request.context =
              some [.string "tenant", .string "main"])).1 ∧
      ownRows workCompiler (some [.string "tenant", .string "main"])
        ((tenantServer workSettings workLayout).serveAll workCompiler workLayout tenantTable
          tenantRequests).2 =
        ((tenantServer workSettings workLayout).serveAll workCompiler workLayout
          (ownRows workCompiler (some [.string "tenant", .string "main"]) tenantTable)
          (tenantRequests.filter fun request =>
            (tenantServer workSettings workLayout).issuer workCompiler request.context =
              some [.string "tenant", .string "main"])).2 :=
  scope_isolation (tenantServer_lawful workSettings workLayout) (by decide)
    (List.mem_singleton_self _) (by decide) tenantRequests _

end MeridianPostgreSQL.Query
