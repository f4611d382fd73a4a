import MeridianPostgreSQL.Compatibility.EntryPoints
import MeridianPostgreSQL.Query.PlanAlignment

/-! # Bindings that only read

A read compatibility Binding sends no statement that writes. A compiler or an
executor refuses the call, and the outbox meets a lock that the server refuses
to a session whose transactions are read only. -/

namespace MeridianPostgreSQL.Compatibility

open Dispatches Settings Query Schema Migration Operations Projection

/-! ## Texts -/

example : (Command.text "SELECT NULL WHERE FALSE").writes = false := by decide

example : (Command.sql [.text "WITH candidates AS (SELECT ", .text ") UPDATE "]).writes = true := by
  decide

/-- What opens a text is decided by its characters. -/
theorem opensWith_ofList {sql : String} {characters : List Char}
    (spelled : sql = String.ofList characters)
    (apart : (writeWords.any fun word => word.toList.isPrefixOf characters ||
      (") " ++ word).toList.isPrefixOf characters) = false) :
    opensWith writeWords (.text sql) = false := by
  subst spelled
  simpa only [opensWith, String.toList_ofList] using apart

/-- No piece of the text opens with a word that writes. -/
def writeFree (command : Sql Query.Origin) : Bool :=
  command.all fun piece => !opensWith writeWords piece

@[simp] theorem writeFree_nil : writeFree [] = true := rfl

@[simp] theorem writeFree_text (sql : String) (rest : Sql Query.Origin) :
    writeFree (.text sql :: rest) = (!opensWith writeWords (.text sql) && writeFree rest) := rfl

@[simp] theorem writeFree_name (name : String) (rest : Sql Query.Origin) :
    writeFree (.name name :: rest) = writeFree rest := by simp [writeFree, opensWith]

@[simp] theorem writeFree_slot (origin : Query.Origin) (rest : Sql Query.Origin) :
    writeFree (.slot origin :: rest) = writeFree rest := by simp [writeFree, opensWith]

@[simp] theorem writeFree_append (left right : Sql Query.Origin) :
    writeFree (left ++ right) = (writeFree left && writeFree right) := List.all_append

theorem writeFree_joined {separator : String} {parts : List (Sql Query.Origin)}
    (plain : opensWith writeWords (.text separator) = false)
    (each : ∀ part ∈ parts, writeFree part = true) :
    writeFree (joined separator parts) = true := by
  apply List.all_eq_true.mpr
  intro piece listed
  cases mem_joined listed with
  | inl separates => rw [separates, plain]; rfl
  | inr inside =>
      obtain ⟨part, held, there⟩ := inside
      exact List.all_eq_true.mp (each part held) piece there

@[simp] theorem writeFree_ident (parts : List String) : writeFree (ident parts) = true := by
  unfold ident
  induction parts with
  | nil => rfl
  | cons first rest induction =>
      cases rest with
      | nil => rfl
      | cons second rest =>
          have plain : opensWith writeWords (.text ".") = false := by rfl
          simpa [plain] using induction

theorem writeFree_conjunction {Value : Type} {parts : List (BoundStatement Query.Origin Value)}
    (each : ∀ part ∈ parts, writeFree part.command = true) :
    writeFree (conjunction parts).command = true := by
  cases parts with
  | nil => rfl
  | cons part rest =>
      have inner : writeFree (joined ") AND (" ((part :: rest).map BoundStatement.command)) =
          true := by
        apply writeFree_joined rfl
        intro command listed
        obtain ⟨held, inside, rfl⟩ := List.mem_map.mp listed
        exact each held inside
      simp only [conjunction, writeFree_append, inner]
      rfl

theorem writeFree_disjunction {Value : Type} {parts : List (BoundStatement Query.Origin Value)}
    (each : ∀ part ∈ parts, writeFree part.command = true) :
    writeFree (disjunction parts).command = true := by
  cases parts with
  | nil => rfl
  | cons part rest =>
      have inner : writeFree (joined ") OR (" ((part :: rest).map BoundStatement.command)) =
          true := by
        apply writeFree_joined rfl
        intro command listed
        obtain ⟨held, inside, rfl⟩ := List.mem_map.mp listed
        exact each held inside
      simp only [disjunction, writeFree_append, inner]
      rfl

/-- A `SELECT` behind a list of named queries. -/
theorem reads_of_writeFree {first : Piece Query.Origin} {rest : Sql Query.Origin}
    (opening : opensWith writeWords first = false) (free : writeFree rest = true) :
    (Command.sql (first :: rest)).writes = false := by
  have none : rest.any (opensWith writeWords) = false := by
    simpa [writeFree, List.all_eq_not_any_not] using free
  simp [Command.writes, opening, none]

/-! ## Expressions -/

section Expressions

variable {targets : Targets} {site : Site}

/-- Items of a list at the same places. -/
theorem writeFree_all {α : Type} {items : List α} {statements : List QueryStatement}
    (length : items.length = statements.length)
    (each : ∀ {index : Nat} {item : α} {statement : QueryStatement},
      items[index]? = some item → statements[index]? = some statement →
        writeFree statement.command = true) :
    ∀ statement ∈ statements, writeFree statement.command = true := by
  intro statement listed
  obtain ⟨index, found⟩ := List.mem_iff_getElem?.mp listed
  have bound : index < items.length :=
    length ▸ (List.getElem?_eq_some_iff.mp found).choose
  exact each (List.getElem?_eq_getElem bound) found

theorem writeFree_map {statements : List QueryStatement}
    (each : ∀ statement ∈ statements, writeFree statement.command = true) :
    ∀ command ∈ statements.map BoundStatement.command, writeFree command = true := by
  intro command listed
  obtain ⟨statement, held, rfl⟩ := List.mem_map.mp listed
  exact each statement held

theorem writeFree_range {operand : QueryStatement} {start finish : Option QueryStatement}
    {includeStart includeEnd : Bool} (operandFree : writeFree operand.command = true)
    (startFree : ∀ side, start = some side → writeFree side.command = true)
    (finishFree : ∀ side, finish = some side → writeFree side.command = true) :
    writeFree (rangeStatement operand start finish includeStart includeEnd).command = true := by
  apply writeFree_conjunction
  intro part listed
  cases List.mem_append.mp listed with
  | inl inside =>
      obtain ⟨side, given, rfl⟩ := Option.map_eq_some_iff.mp (Option.mem_toList.mp inside)
      cases includeStart <;>
        simp only [boundaryStatement, writeFree_append, operandFree, startFree side given] <;> rfl
  | inr inside =>
      obtain ⟨side, given, rfl⟩ := Option.map_eq_some_iff.mp (Option.mem_toList.mp inside)
      cases includeEnd <;>
        simp only [boundaryStatement, writeFree_append, operandFree, finishFree side given] <;> rfl

/-- No compiled expression holds a word that writes where a statement might begin. -/
theorem compiles_writeFree {path : List Nat} {expression : Expression}
    {statement : QueryStatement} (compiles : Compiles targets site path expression statement) :
    writeFree statement.command = true := by
  induction compiles with
  | field named => exact writeFree_ident _
  | literal => rfl
  | point => rfl
  | @unary path kind operand statement operand_compiles induction =>
      cases kind <;> simp only [unaryStatement, writeFree_append, induction] <;> rfl
  | @boolean path kind operands statements length each induction =>
      have parts := writeFree_all length induction
      cases kind with
      | and => exact writeFree_conjunction parts
      | or => exact writeFree_disjunction parts
  | @binary path kind leftValue rightValue left right leftAdapted rightAdapted left_compiles
      right_compiles left_adapts right_adapts leftFree rightFree =>
      rw [← left_adapts.command] at leftFree
      rw [← right_adapts.command] at rightFree
      cases kind <;>
        simp only [binaryStatement, writeFree_append, leftFree, rightFree] <;> rfl
  | hasPrefix left_compiles right_compiles leftFree rightFree =>
      simp only [prefixStatement, writeFree_append, leftFree, rightFree]
      rfl
  | containsJson leftField json left_compiles right_compiles right_adapts leftFree rightFree =>
      rw [← right_adapts.command] at rightFree
      simp only [containsStatement, writeFree_append, leftFree, rightFree]
      rfl
  | containsText leftField left_compiles right_compiles leftFree rightFree =>
      simp only [positionStatement, writeFree_append, leftFree, rightFree]
      rfl
  | @isNull path operand expected statement operand_compiles induction =>
      cases expected <;> simp only [isNullStatement, writeFree_append, induction] <;> rfl
  | @membership path negated operand values statement items adapted operand_compiles nonempty
      length each adapts operandFree induction =>
      have parts : ∀ part ∈ adapted, writeFree part.command = true := by
        apply writeFree_all (length.trans adapts.length_eq)
        intro index value statement found held
        obtain ⟨before, listed, changed⟩ := adapts_at adapts held
        rw [changed.command]
        exact induction found listed
      have list : writeFree (joined ", " (adapted.map BoundStatement.command)) = true :=
        writeFree_joined rfl (writeFree_map parts)
      cases negated <;>
        simp only [membershipStatement, writeFree_append, operandFree, list] <;> rfl
  | timestampRange operand_compiles start_same start_compiles finish_same finish_compiles
      operandFree startFree finishFree =>
      apply writeFree_range operandFree
      · intro side given
        obtain ⟨expression, same⟩ := Option.isSome_iff_exists.mp
          (start_same.trans (Option.isSome_iff_exists.mpr ⟨side, given⟩))
        exact startFree same given
      · intro side given
        obtain ⟨expression, same⟩ := Option.isSome_iff_exists.mp
          (finish_same.trans (Option.isSome_iff_exists.mpr ⟨side, given⟩))
        exact finishFree same given
  | documentPath document_compiles induction =>
      simp only [documentPathStatement, writeFree_append, induction]
      rfl
  | @fullText path fields query statements nonempty length each induction =>
      have list : writeFree (joined ", " (statements.map BoundStatement.command)) = true :=
        writeFree_joined rfl (writeFree_map (writeFree_all length induction))
      simp only [fullTextStatement, writeFree_append, list]
      rfl
  | distance left_compiles right_compiles leftFree rightFree =>
      simp only [distanceStatement, writeFree_append, leftFree, rightFree]
      rfl
  | distanceWithin left_compiles right_compiles leftFree rightFree =>
      simp only [distanceWithinStatement, writeFree_append, leftFree, rightFree]
      rfl
  | count => rfl
  | @aggregate path function operand distinct statement known operand_compiles induction =>
      cases function <;> cases distinct <;>
        simp only [aggregateStatement, writeFree_append, induction] <;> rfl

end Expressions

/-! ## Compiled commands -/

section Compiled

variable (translator : PostgreSQLQueryTranslator)

theorem scopePredicate_writeFree (tableAlias : String) :
    writeFree (translator.scopePredicate tableAlias).command = true := by
  apply writeFree_joined rfl
  intro part listed
  obtain ⟨column, held, rfl⟩ := List.mem_map.mp listed
  simp only [writeFree_append, writeFree_ident]
  rfl

theorem relationScope_writeFree {traversal : Traversal} {ref : String} {index : Nat}
    {layout : ResourceLayout} {scope : QueryStatement}
    (accepted : translator.relationScope traversal ref index layout = .ok scope) :
    writeFree scope.command = true := by
  unfold PostgreSQLQueryTranslator.relationScope at accepted
  split at accepted
  · cases accepted
    exact scopePredicate_writeFree translator "r"
  · obtain ⟨predicate, predicateOk, accepted⟩ := bind_eq_ok accepted
    cases accepted
    apply writeFree_conjunction
    intro part listed
    cases List.mem_cons.mp listed with
    | inl same => exact same ▸ scopePredicate_writeFree translator "r"
    | inr last =>
        rw [List.mem_singleton.mp last]
        exact compiles_writeFree (compile_compiles [] _ predicate predicateOk)

theorem edgePart_writeFree {columns : Sql Query.Origin} {index : Nat} {ref : String}
    {layout : ResourceLayout} {scope : QueryStatement} (plain : writeFree columns = true)
    (free : writeFree scope.command = true) :
    writeFree (translator.edgePart columns index ref layout scope).command = true := by
  simp only [PostgreSQLQueryTranslator.edgePart, writeFree_append, plain, free, tableName,
    writeFree_ident]
  rfl

omit translator in
theorem edgeColumns_writeFree :
    writeFree PostgreSQLQueryTranslator.forwardColumns = true ∧
      writeFree PostgreSQLQueryTranslator.reverseColumns = true := by
  simp only [PostgreSQLQueryTranslator.forwardColumns, PostgreSQLQueryTranslator.reverseColumns,
    writeFree_text, writeFree_nil, Bool.and_true, Bool.and_eq_true, Bool.not_eq_true']
  and_intros
  all_goals exact opensWith_ofList rfl rfl

theorem edgeParts_writeFree {traversal : Traversal} {ref : String} {index : Nat}
    {edges : List QueryStatement}
    (accepted : translator.edgeParts traversal ref index = .ok edges) :
    ∀ edge ∈ edges, writeFree edge.command = true := by
  unfold PostgreSQLQueryTranslator.edgeParts at accepted
  obtain ⟨layout, _, accepted⟩ := bind_eq_ok accepted
  split at accepted
  · exact nomatch accepted
  · obtain ⟨scope, scopeOk, accepted⟩ := bind_eq_ok accepted
    cases accepted
    have free := relationScope_writeFree translator scopeOk
    intro edge listed
    cases List.mem_append.mp listed with
    | inl inside =>
        split at inside
        · rw [List.mem_singleton.mp inside]
          exact edgePart_writeFree translator edgeColumns_writeFree.1 free
        · exact nomatch inside
    | inr inside =>
        split at inside
        · rw [List.mem_singleton.mp inside]
          exact edgePart_writeFree translator edgeColumns_writeFree.2 free
        · exact nomatch inside

omit translator in
theorem walk_writeFree : writeFree (PostgreSQLQueryTranslator.walkStart ++
    PostgreSQLQueryTranslator.walkEnd) = true := by
  simp only [PostgreSQLQueryTranslator.walkStart, PostgreSQLQueryTranslator.walkEnd,
    List.cons_append, List.nil_append, writeFree_text, writeFree_slot, writeFree_nil,
    Bool.and_true, Bool.and_eq_true, Bool.not_eq_true']
  and_intros
  all_goals exact opensWith_ofList rfl rfl

theorem traversal_reads {operation : QueryOperation} {traversal : Traversal}
    {context : TranslationContext} {query : CompiledQuery}
    (accepted : translator.compileTraversal operation traversal context = .ok query) :
    (Command.sql query.statement.command).writes = false := by
  rcases PostgreSQLQueryTranslator.compileTraversal_cases accepted with ⟨edges, edgesOk, rfl⟩
  have free := forall_of_mapM_zipIdx
    (fun part : List QueryStatement => ∀ edge ∈ part, writeFree edge.command = true) edgesOk
    fun _ compiled => edgeParts_writeFree translator compiled
  have joinedFree : writeFree (joined " UNION ALL "
      (edges.flatten.map BoundStatement.command)) = true := by
    apply writeFree_joined rfl
    apply writeFree_map
    intro edge listed
    obtain ⟨part, inside, held⟩ := List.mem_flatten.mp listed
    exact free part inside edge held
  have walk : writeFree (PostgreSQLQueryTranslator.walkStart ++
      PostgreSQLQueryTranslator.walkEnd) = true := walk_writeFree
  have rest : writeFree (joined " UNION ALL " (edges.flatten.map BoundStatement.command) ++
      PostgreSQLQueryTranslator.walkStart ++ PostgreSQLQueryTranslator.walkEnd) = true := by
    rw [List.append_assoc, writeFree_append, joinedFree, walk]
    rfl
  exact reads_of_writeFree rfl rest

theorem select_reads {operation : QueryOperation} {context : TranslationContext}
    {query : CompiledQuery}
    (accepted : translator.compileSelect operation context = .ok query) :
    (Command.sql query.statement.command).writes = false := by
  unfold PostgreSQLQueryTranslator.compileSelect at accepted
  obtain ⟨targets, _, accepted⟩ := bind_eq_ok accepted
  obtain ⟨base, _, accepted⟩ := bind_eq_ok accepted
  obtain ⟨layout, _, accepted⟩ := bind_eq_ok accepted
  obtain ⟨tableAlias, _, accepted⟩ := bind_eq_ok accepted
  obtain ⟨joins, _, accepted⟩ := bind_eq_ok accepted
  obtain ⟨predicate, _, accepted⟩ := bind_eq_ok accepted
  split at accepted
  · obtain ⟨statement, statementOk, accepted⟩ := bind_eq_ok accepted
    cases accepted
    unfold PostgreSQLQueryTranslator.aggregateStatement at statementOk
    obtain ⟨select, _, statementOk⟩ := bind_eq_ok statementOk
    obtain ⟨group, _, statementOk⟩ := bind_eq_ok statementOk
    cases statementOk
    rfl
  · obtain ⟨record, recordOk, accepted⟩ := bind_eq_ok accepted
    cases accepted
    unfold PostgreSQLQueryTranslator.recordStatement at recordOk
    obtain ⟨keys, _, recordOk⟩ := bind_eq_ok recordOk
    obtain ⟨select, _, recordOk⟩ := bind_eq_ok recordOk
    obtain ⟨restricted, _, recordOk⟩ := bind_eq_ok recordOk
    cases recordOk
    rfl

/-- A compiled query is a `SELECT`. -/
theorem query_reads {plan : Plan} {context : TranslationContext} {query : CompiledQuery}
    (accepted : translator.compile plan context = .ok query) :
    (Command.sql query.statement.command).writes = false := by
  unfold PostgreSQLQueryTranslator.compile at accepted
  dsimp only at accepted
  repeat' split at accepted
  all_goals try contradiction
  · cases accepted
    rfl
  · exact traversal_reads translator accepted
  · exact select_reads translator accepted

theorem get_reads {compiler : DMLCompiler} {layout : ResourceLayout} {input : Json.Object}
    {context : OperationContext} {command : DMLCommand}
    (accepted : compiler.get layout input context = .ok command) :
    command.method = .get ∧ (Command.sql command.statement.command).writes = false := by
  unfold DMLCompiler.get at accepted
  split at accepted
  · obtain ⟨condition, _, accepted⟩ := bind_eq_ok accepted
    cases accepted
    exact ⟨rfl, rfl⟩
  · exact nomatch accepted

end Compiled

/-! ## Admission -/

section Admission

variable {Document : Type} {compiler : OperationCompiler Document} {request : ExecutionRequest}

/-- A Binding that only reads admits flagged reads. -/
theorem admitted_reads {method : String} (readOnly : compiler.settings.readOnly = true)
    (accepted : compiler.admitted request.operation = .ok method) :
    Call.reads request.operation = true ∧ method ∈ OperationCompiler.readMethods := by
  rcases OperationCompiler.admitted_cases accepted with ⟨contract, guarded, _⟩
  have flagged := guarded readOnly
  refine ⟨?_, flagged.2⟩
  simp [Call.reads, flagged.1, contract, flagged.2]

/-- What a Binding that only reads compiles is a query or a `get`. -/
inductive ReadCommand : AdapterCommand Document → Prop
  | query {translator : PostgreSQLQueryTranslator} {plan : Plan} {context : TranslationContext}
      {compiled : CompiledQuery} (accepted : translator.compile plan context = .ok compiled) :
      ReadCommand (.query compiled)
  | get {dml : DMLCompiler} {layout : ResourceLayout} {input : Json.Object}
      {context : OperationContext} {command : DMLCommand}
      (accepted : dml.get layout input context = .ok command) : ReadCommand (.dml [command])

theorem dml_get_reads {dml : DMLCompiler} {canonical : String} {input : Json.Object}
    {context : OperationContext} {commands : List DMLCommand}
    (accepted : dml.compile .get canonical input context = .ok commands) :
    ∃ layout command, commands = [command] ∧ dml.get layout input context = .ok command := by
  unfold DMLCompiler.compile at accepted
  rw [if_neg fun writes => writes.1 rfl] at accepted
  split at accepted
  · exact nomatch accepted
  · obtain ⟨command, commandOk, same⟩ := map_eq_ok accepted
    cases same
    exact ⟨_, command, rfl, commandOk⟩

theorem dispatch_reads {method : String} {command : AdapterCommand Document}
    (read : method ∈ OperationCompiler.readMethods)
    (accepted : compiler.dispatch request method = .ok command) : ReadCommand command := by
  have known : OperationCompiler.dmlMethod method = none ∨
      OperationCompiler.dmlMethod method = some .get := by
    have each : ∀ name ∈ OperationCompiler.readMethods,
        OperationCompiler.dmlMethod name = none ∨
          OperationCompiler.dmlMethod name = some .get := by decide
    exact each method read
  unfold OperationCompiler.dispatch at accepted
  obtain ⟨registry, _, accepted⟩ := bind_eq_ok accepted
  split at accepted
  · exact nomatch accepted
  · split at accepted
    · rename_i found target _ held _ _
      obtain ⟨commands, commandsOk, same⟩ := map_eq_ok accepted
      cases same
      have get : found = .get := by
        cases known with
        | inl none => rw [none] at held; exact nomatch held
        | inr some => rw [some] at held; exact (Option.some.inj held).symm
      subst get
      obtain ⟨_, command, rfl, compiled⟩ := dml_get_reads commandsOk
      exact .get compiled
    · obtain ⟨query, queryOk, same⟩ := map_eq_ok accepted
      cases same
      unfold OperationCompiler.compileQuery at queryOk
      obtain ⟨_, _, queryOk⟩ := bind_eq_ok queryOk
      obtain ⟨operation, _, queryOk⟩ := bind_eq_ok queryOk
      dsimp only at queryOk
      split at queryOk
      · exact nomatch queryOk
      · obtain ⟨fingerprints, _, queryOk⟩ := bind_eq_ok queryOk
        exact .query queryOk

theorem compile_reads {command : AdapterCommand Document}
    (readOnly : compiler.settings.readOnly = true)
    (accepted : compiler.compile request = .ok command) :
    Call.reads request.operation = true ∧ ReadCommand command := by
  unfold OperationCompiler.compile at accepted
  obtain ⟨method, methodOk, accepted⟩ := bind_eq_ok accepted
  obtain ⟨reads, read⟩ := admitted_reads readOnly methodOk
  refine ⟨reads, ?_⟩
  split at accepted
  · rename_i publishes
    subst publishes
    exact absurd read (by decide)
  · exact dispatch_reads read accepted

end Admission

/-! ## Programs -/

/-- What the adapter sends under a Binding that only reads. -/
inductive ReaderSends : Command → Prop
  | transaction {sql : String} (listed : sql ∈
      ["BEGIN", "BEGIN ISOLATION LEVEL READ COMMITTED", "COMMIT", "ROLLBACK"]) :
      ReaderSends (.text sql)
  | timeout : ReaderSends (.sql [.text "SELECT set_config('statement_timeout', ",
      .slot (.value "timeout"), .text ", true)"])
  | query {translator : PostgreSQLQueryTranslator} {plan : Plan} {context : TranslationContext}
      {compiled : CompiledQuery} (accepted : translator.compile plan context = .ok compiled) :
      ReaderSends (.sql compiled.statement.command)
  | get {dml : DMLCompiler} {layout : ResourceLayout} {input : Json.Object}
      {context : OperationContext} {command : DMLCommand}
      (accepted : dml.get layout input context = .ok command) :
      ReaderSends (.sql command.statement.command)
  | columns (table : String) : ReaderSends (.sql (Runtime.columnsStatement table))
  | key (table : String) : ReaderSends (.sql (Runtime.keyStatement table))
  | privilege (table privilege : String) :
      ReaderSends (.sql (Runtime.privilegeStatement table privilege))
  | now : ReaderSends (.text "SELECT clock_timestamp() AS now")
  | claim (tables : OutboxTables) (current : Int) (limit : Nat) :
      ReaderSends (.sql (tables.claimStatement current limit).command)
  | intent (tables : OutboxTables) : ReaderSends (.sql (Runtime.intentStatement tables true))
  | state (tables : OutboxTables) : ReaderSends (.sql (Runtime.stateStatement tables))

/-- None of it writes. -/
theorem ReaderSends.reads {command : Command} (sends : ReaderSends command) :
    command.writes = false := by
  cases sends with
  | transaction listed =>
      simp only [List.mem_cons, List.not_mem_nil, or_false] at listed
      rcases listed with rfl | rfl | rfl | rfl <;> rfl
  | query accepted => exact query_reads _ accepted
  | get accepted => exact (get_reads accepted).2
  | _ => rfl

/-- A server refuses to lock rows for a session of the pool whose transactions
only read, and which sent what the adapter sends there. -/
def RefusesLocks {Document Definition Row : Type} (runtime : Runtime Document Definition Row) :
    Prop :=
  ∀ earlier, (∀ command ∈ earlier, ReaderSends command) → ∀ command, ReaderSends command →
    command.locks = true →
      ∃ error, runtime.server (runtime.configured ++ earlier ++ [command]) = .error error

/-- The pool made the transactions of the connection read only. -/
def readerSession {Document Definition Row : Type} (runtime : Runtime Document Definition Row) :
    Mode ReaderSends := .since runtime.configured ReaderSends

section Programs

variable {Document Definition Row : Type} {runtime : Runtime Document Definition Row}
  {mode : Mode ReaderSends}

theorem sends_compiled {α : Type} {value : Compiled α} : Sends mode (compiled value) := by
  cases value with
  | error error => exact sends_throw
  | ok value => exact sends_pure

theorem sends_checked {α : Type} {value : Except String α} :
    Sends mode (checked value) := by
  cases value with
  | error error => exact sends_throw
  | ok value => exact sends_pure

theorem sends_ask {command : Sql Query.Origin} (sends : ReaderSends (.sql command)) :
    Sends mode (runtime.ask command) := sends_send sends

theorem sends_tell {command : Sql Query.Origin} (sends : ReaderSends (.sql command)) :
    Sends mode (runtime.tell command) :=
  sends_bind (sends_ask sends) fun _ => sends_pure

theorem sends_inTransaction {α : Type} {body : Wire α} (sends : Sends mode body) :
    Sends mode (runtime.inTransaction body) :=
  sends_transaction (.transaction (by decide)) (.transaction (by decide))
    (.transaction (by decide)) sends

theorem raises_inTransaction {α : Type} {body : Wire α} (sends : Sends mode body)
    (raises : Raises mode body) : Raises mode (runtime.inTransaction body) :=
  raises_transaction (.transaction (by decide)) (.transaction (by decide)) sends raises

/-! ### Guards -/

section Guards

variable (readOnly : runtime.settings.readOnly = true)

include readOnly

theorem raises_requireWritable : Raises mode runtime.requireWritable := by
  unfold Runtime.requireWritable
  rw [if_pos readOnly]
  exact raises_throw

theorem sends_guarded {α : Type} {next : Unit → Wire α} :
    Sends mode (runtime.requireWritable >>= next) := by
  apply sends_raised _ (raises_requireWritable readOnly)
  unfold Runtime.requireWritable
  rw [if_pos readOnly]
  exact sends_throw

theorem raises_guarded {α : Type} {next : Unit → Wire α} :
    Raises mode (runtime.requireWritable >>= next) :=
  raises_bind (raises_requireWritable readOnly)

theorem raises_compileSchema : Raises mode runtime.compileSchema := by
  unfold Runtime.compileSchema Schema.compile
  rw [if_pos readOnly]
  exact raises_throw

end Guards

/-! ### Sessions -/

theorem sends_setTimeout : Sends mode runtime.setTimeout := sends_tell .timeout

theorem sends_executeDml {command : DMLCommand}
    (sends : ReaderSends (.sql command.statement.command)) :
    Sends mode (runtime.executeDml command) := by
  apply sends_bind (sends_ask sends)
  intro rows
  split
  · exact sends_throw
  · split
    · exact sends_throw
    · exact sends_pure

theorem sends_executeCommand {request : ExecutionRequest} {transactional : Bool}
    {command : AdapterCommand Document} (read : ReadCommand command) :
    Sends mode (runtime.executeCommand request transactional command) := by
  cases read with
  | query accepted =>
      apply sends_bind sends_compiled
      intro _
      exact sends_bind (sends_ask (.query accepted)) fun _ => sends_checked
  | get accepted =>
      unfold Runtime.executeCommand
      dsimp only
      rw [(get_reads accepted).1, if_neg (by decide)]
      exact sends_bind (sends_executeDml (.get accepted)) fun _ => sends_checked

section ReadOnly

variable (readOnly : runtime.settings.readOnly = true)

include readOnly

theorem compiled_reads {request : ExecutionRequest} {command : AdapterCommand Document}
    (accepted : runtime.operations.compile request = .ok command) :
    Call.reads request.operation = true ∧ ReadCommand command :=
  compile_reads (runtime.operationsBuilt ▸ readOnly) accepted

theorem sends_executeRequest {request : ExecutionRequest} {transactional : Bool} :
    Sends mode (runtime.executeRequest request transactional) := by
  unfold Runtime.executeRequest
  split
  · exact sends_throw
  · split
    · exact sends_throw
    · cases accepted : runtime.operations.compile request with
      | error error => exact sends_raised sends_throw raises_throw
      | ok command =>
          apply sends_bind sends_setTimeout
          intro _
          exact sends_executeCommand (compiled_reads readOnly accepted).2

theorem raises_executeRequest {request : ExecutionRequest} {transactional : Bool}
    (writes : Call.reads request.operation = false) :
    Raises mode (runtime.executeRequest request transactional) := by
  unfold Runtime.executeRequest
  split
  · exact raises_throw
  · split
    · exact raises_throw
    · cases accepted : runtime.operations.compile request with
      | error error => exact raises_bind raises_throw
      | ok command =>
          rw [(compiled_reads readOnly accepted).1] at writes
          exact nomatch writes

end ReadOnly

/-! ### Outbox -/

theorem sends_now {clock : Option CallerClock} : Sends mode (runtime.now clock) := by
  unfold Runtime.now
  split
  · split
    · exact sends_pure
    · exact sends_throw
  · apply sends_bind (sends_ask .now)
    intro rows
    split
    · exact sends_pure
    · exact sends_throw

theorem sends_outboxConnection {α : Type} {body : Wire α} (sends : Sends mode body) :
    Sends mode (runtime.outboxConnection body) :=
  sends_inTransaction (sends_bind sends_setTimeout fun _ => sends)

theorem raises_outboxConnection {α : Type} {body : Wire α} (sends : Sends mode body)
    (raises : Raises mode body) : Raises mode (runtime.outboxConnection body) :=
  raises_inTransaction (sends_bind sends_setTimeout fun _ => sends)
    (raises_after sends_setTimeout fun _ => raises)

theorem sends_verifyTable {table : String} : Sends mode (runtime.verifyTable table) := by
  apply sends_bind (sends_ask (.columns table))
  intro columns
  split
  · exact sends_throw
  · apply sends_bind (sends_ask (.key table))
    intro key
    split
    · exact sends_throw
    · apply sends_forM
      intro privilege _
      apply sends_bind (sends_ask (.privilege table privilege))
      intro allowed
      split
      · exact sends_pure
      · exact sends_throw

theorem sends_openOutbox : Sends mode runtime.openOutbox :=
  sends_outboxConnection (sends_forM fun _ _ => sends_verifyTable)

theorem sends_load {tables : OutboxTables} :
    Sends mode (runtime.load tables true) := by
  apply sends_bind (sends_ask (.intent tables))
  intro rows
  split
  · exact sends_throw
  · exact sends_bind (sends_ask (.state tables)) fun _ => sends_pure

theorem claim_locks {tables : OutboxTables} {current : Int} {limit : Nat} :
    (Command.sql (tables.claimStatement current limit).command).locks = true := by
  simp [Command.locks, OutboxTables.claimStatement, opensWith]

section Locks

variable (refuses : RefusesLocks runtime)

include refuses

theorem raises_ask {command : Sql Query.Origin} (sends : ReaderSends (.sql command))
    (locks : (Command.sql command).locks = true) :
    Raises (readerSession runtime) (runtime.ask command) := by
  apply raises_send
  rintro _ ⟨earlier, rfl, sent⟩
  exact refuses earlier sent (.sql command) sends locks

/-- The locked read of an intent ends the call. -/
theorem raises_load {tables : OutboxTables} :
    Raises (readerSession runtime) (runtime.load tables true) := by
  apply raises_bind
  apply raises_ask refuses (.intent tables)
  simp [Command.locks, Runtime.intentStatement, opensWith]

theorem raises_leased {tables : OutboxTables} {owner : String} {clock : Option CallerClock} :
    Raises (readerSession runtime) (runtime.leased tables owner clock) :=
  raises_bind (raises_load refuses)

theorem sends_leased {α : Type} {tables : OutboxTables} {owner : String}
    {clock : Option CallerClock} {next : Row × StateRow × Int → Wire α} :
    Sends (readerSession runtime) (runtime.leased tables owner clock >>= next) :=
  sends_raised (sends_raised sends_load (raises_load refuses)) (raises_leased refuses)

theorem claim_refused {tables : OutboxTables} {owner : String} {limit duration : Int}
    {clock : Option CallerClock} :
    Sends (readerSession runtime) (runtime.claim tables owner limit duration clock) ∧
      Raises (readerSession runtime) (runtime.claim tables owner limit duration clock) := by
  unfold Runtime.claim
  split
  · exact ⟨sends_throw, raises_throw⟩
  · split
    · exact ⟨sends_throw, raises_throw⟩
    · split
      · exact ⟨sends_throw, raises_throw⟩
      · have sends : Sends (readerSession runtime) (do
            let current ← runtime.now clock
            let rows ← runtime.ask (tables.claimStatement current limit.toNat).command
            runtime.leaseRows tables owner duration clock rows 0) :=
          sends_bind sends_now fun _ => sends_raised (sends_ask (.claim tables _ _))
            (raises_ask refuses (.claim tables _ _) claim_locks)
        have raises : Raises (readerSession runtime) (do
            let current ← runtime.now clock
            let rows ← runtime.ask (tables.claimStatement current limit.toNat).command
            runtime.leaseRows tables owner duration clock rows 0) :=
          raises_after sends_now fun _ =>
            raises_bind (raises_ask refuses (.claim tables _ _) claim_locks)
        exact ⟨sends_outboxConnection sends, raises_outboxConnection sends raises⟩

theorem complete_refused {tables : OutboxTables} {owner : String} {acknowledged : Json}
    {fingerprint : String} {clock : Option CallerClock} :
    Sends (readerSession runtime)
        (runtime.complete tables owner acknowledged fingerprint clock) ∧
      Raises (readerSession runtime)
        (runtime.complete tables owner acknowledged fingerprint clock) := by
  unfold Runtime.complete
  split
  · exact ⟨sends_throw, raises_throw⟩
  · exact ⟨sends_outboxConnection (sends_leased refuses),
      raises_outboxConnection (sends_leased refuses) (raises_bind (raises_leased refuses))⟩

theorem release_refused {tables : OutboxTables} {owner : String} {clock : Option CallerClock} :
    Sends (readerSession runtime) (runtime.release tables owner clock) ∧
      Raises (readerSession runtime) (runtime.release tables owner clock) :=
  ⟨sends_outboxConnection (sends_leased refuses),
    raises_outboxConnection (sends_leased refuses) (raises_bind (raises_leased refuses))⟩

end Locks

end Programs

/-! ## Calls -/

/-- The mode of the connection that a call gets. -/
def Call.session {Document Definition Row : Type} (call : Call Definition)
    (runtime : Runtime Document Definition Row) : Mode ReaderSends :=
  if call.pooled then readerSession runtime else .any

section Calls

variable {Document Definition Row : Type} {runtime : Runtime Document Definition Row}
  {mode : Mode ReaderSends}

theorem sends_quiet {program : Wire Unit} (sends : Sends mode program) :
    Sends mode (Call.quiet program) := sends_bind sends fun _ => sends_pure

theorem raises_quiet {program : Wire Unit} (raises : Raises mode program) :
    Raises mode (Call.quiet program) := raises_bind raises

variable (readOnly : runtime.settings.readOnly = true)

include readOnly

/-- The commands of a session that runs one request. -/
theorem sends_execute {request : ExecutionRequest} :
    Sends mode (runtime.execute request) := by
  apply sends_bind (sends_tell (.transaction (by decide)))
  intro _
  apply sends_bind (sends_executeRequest readOnly)
  exact fun _ => sends_tell (.transaction (by decide))

theorem raises_execute {request : ExecutionRequest}
    (writes : Call.reads request.operation = false) :
    Raises mode (runtime.execute request) := by
  have begins : Sends mode runtime.begin := sends_tell (.transaction (by decide))
  apply raises_after begins
  exact fun _ => raises_bind (raises_executeRequest readOnly writes)

theorem sends_call (refuses : RefusesLocks runtime) (call : Call Definition) :
    Sends (call.session runtime) (call.run runtime) := by
  cases call with
  | compileOperation request => exact sends_bind sends_compiled fun _ => sends_pure
  | compileDml method canonical input context =>
      exact sends_bind sends_compiled fun _ => sends_pure
  | compileClaim layout filter changes limit context =>
      exact sends_bind sends_compiled fun _ => sends_pure
  | compileSchema => exact sends_bind sends_checked fun _ => sends_pure
  | begin => exact sends_quiet (sends_tell (.transaction (by decide)))
  | execute request => exact sends_quiet (sends_execute readOnly)
  | executeWithin request => exact sends_quiet (sends_executeRequest readOnly)
  | commit => exact sends_quiet (sends_tell (.transaction (by decide)))
  | rollback => exact sends_quiet (sends_tell (.transaction (by decide)))
  | migrate plan expected => exact sends_quiet (sends_guarded readOnly)
  | planActivation resource current target fingerprint =>
      exact sends_raised (sends_guarded readOnly) (raises_guarded readOnly)
  | applyActivation plan => exact sends_quiet (sends_guarded readOnly)
  | importRows tenant scope lines => exact sends_quiet (sends_guarded readOnly)
  | importLogical payload context => exact sends_quiet (sends_guarded readOnly)
  | openOutbox => exact sends_quiet sends_openOutbox
  | claim tables owner limit duration clock => exact sends_quiet (claim_refused refuses).1
  | complete tables owner acknowledged fingerprint clock =>
      exact sends_quiet (complete_refused refuses).1
  | release tables owner clock => exact sends_quiet (release_refused refuses).1

theorem raises_mutation (refuses : RefusesLocks runtime) {call : Call Definition}
    (mutates : call.mutates = true) : Raises (call.session runtime) (call.run runtime) := by
  cases call with
  | compileOperation request =>
      apply raises_bind
      cases accepted : runtime.operations.compile request with
      | error error => exact raises_throw
      | ok command =>
          rw [Call.mutates, (compiled_reads readOnly accepted).1] at mutates
          exact nomatch mutates
  | compileDml method canonical input context =>
      have writes : method ≠ .get := bne_iff_ne.mp mutates
      apply raises_bind
      unfold DMLCompiler.compile
      rw [if_pos ⟨writes, runtime.dmlBuilt ▸ readOnly⟩]
      exact raises_throw
  | compileClaim layout filter changes limit context =>
      apply raises_bind
      unfold DMLCompiler.atomicClaim
      rw [if_pos (runtime.dmlBuilt ▸ readOnly)]
      exact raises_throw
  | compileSchema => exact raises_bind (raises_compileSchema readOnly)
  | begin => exact nomatch mutates
  | execute request =>
      exact raises_quiet (raises_execute readOnly (by simpa [Call.mutates] using mutates))
  | executeWithin request =>
      exact raises_quiet (raises_executeRequest readOnly (by simpa [Call.mutates] using mutates))
  | commit => exact nomatch mutates
  | rollback => exact nomatch mutates
  | migrate plan expected => exact raises_quiet (raises_guarded readOnly)
  | planActivation resource current target fingerprint =>
      exact raises_bind (raises_guarded readOnly)
  | applyActivation plan => exact raises_quiet (raises_guarded readOnly)
  | importRows tenant scope lines => exact raises_quiet (raises_guarded readOnly)
  | importLogical payload context => exact raises_quiet (raises_guarded readOnly)
  | openOutbox => exact nomatch mutates
  | claim tables owner limit duration clock => exact raises_quiet (claim_refused refuses).2
  | complete tables owner acknowledged fingerprint clock =>
      exact raises_quiet (complete_refused refuses).2
  | release tables owner clock => exact raises_quiet (release_refused refuses).2

/-- What a compiler returns holds no command that writes. -/
def Hands (program : Wire Handed) : Prop :=
  ∀ before, Ends program before (fun handed _ => ∀ command ∈ handed, command.writes = false)
    (fun _ _ => True)

omit readOnly in
theorem hands_after {α : Type} {program : Wire α} {next : α → Wire Handed}
    (hands : ∀ result, Hands (next result)) : Hands (program >>= next) := by
  intro before
  apply ends_bind.mpr
  unfold Ends
  cases program.run before with
  | ok result after => exact hands result after
  | error error after => trivial

omit readOnly in
theorem hands_none : Hands (pure []) := fun _ _ listed => nomatch listed

omit readOnly in
theorem hands_quiet {program : Wire Unit} : Hands (Call.quiet program) :=
  hands_after fun _ => hands_none

omit readOnly in
theorem hands_compiled {α : Type} {value : Compiled α} {f : α → Handed}
    (reads : ∀ result, value = .ok result → ∀ command ∈ f result, command.writes = false) :
    Hands (do let result ← compiled value; pure (f result)) := by
  intro before
  cases value with
  | error error => trivial
  | ok result => exact reads result rfl

theorem handedCommand_reads {request : ExecutionRequest} {command : AdapterCommand Document}
    (accepted : runtime.operations.compile request = .ok command) :
    ∀ handed ∈ Call.handedCommand command, handed.writes = false := by
  intro handed listed
  cases (compiled_reads readOnly accepted).2 with
  | query selects => rw [List.mem_singleton.mp listed, query_reads _ selects]
  | get selects => rw [List.mem_singleton.mp listed, (get_reads selects).2]

theorem hands_call (call : Call Definition) : Hands (call.run runtime) := by
  cases call with
  | compileOperation request => exact hands_compiled fun _ => handedCommand_reads readOnly
  | compileDml method canonical input context =>
      apply hands_compiled
      intro commands accepted handed listed
      by_cases get : method = .get
      · subst get
        obtain ⟨_, command, rfl, compiled⟩ := dml_get_reads accepted
        rw [List.mem_singleton.mp listed, (get_reads compiled).2]
      · unfold DMLCompiler.compile at accepted
        rw [if_pos ⟨get, runtime.dmlBuilt ▸ readOnly⟩] at accepted
        exact nomatch accepted
  | compileClaim layout filter changes limit context =>
      apply hands_compiled
      intro command accepted
      unfold DMLCompiler.atomicClaim at accepted
      rw [if_pos (runtime.dmlBuilt ▸ readOnly)] at accepted
      exact nomatch accepted
  | compileSchema =>
      intro before
      apply ends_bind.mpr
      apply ((raises_compileSchema readOnly : Raises (.any : Mode ReaderSends)
        runtime.compileSchema) before trivial).mono
      · exact fun _ _ impossible => impossible.elim
      · exact fun _ _ _ => trivial
  | planActivation resource current target fingerprint => exact hands_after fun _ => hands_none
  | begin => exact hands_quiet
  | execute request => exact hands_quiet
  | executeWithin request => exact hands_quiet
  | commit => exact hands_quiet
  | rollback => exact hands_quiet
  | migrate plan expected => exact hands_quiet
  | applyActivation plan => exact hands_quiet
  | importRows tenant scope lines => exact hands_quiet
  | importLogical payload context => exact hands_quiet
  | openOutbox => exact hands_quiet
  | claim tables owner limit duration clock => exact hands_quiet
  | complete tables owner acknowledged fingerprint clock => exact hands_quiet
  | release tables owner clock => exact hands_quiet

end Calls

/-! ## Bindings -/

section Bindings

variable {Document Definition Row : Type}

/-- A connection of the pool was configured before it was handed out, and its
sessions sent what the adapter sends. A caller of the others brings a connection
of its own. -/
def Call.Connected (call : Call Definition) (runtime : Runtime Document Definition Row)
    (history : List Command) : Prop :=
  call.pooled = true → ∃ earlier, history = runtime.configured ++ earlier ∧
    ∀ command ∈ earlier, ReaderSends command

theorem session_of_connected {runtime : Runtime Document Definition Row}
    {call : Call Definition} {history : List Command}
    (connected : call.Connected runtime history) : (call.session runtime).Holds history := by
  unfold Call.session
  split
  · rename_i pooled
    exact connected pooled
  · trivial

/-- A call leaves a connection as the pool hands it out. -/
theorem connected_after {runtime : Runtime Document Definition Row}
    (readOnly : runtime.settings.readOnly = true) (refuses : RefusesLocks runtime)
    {call next : Call Definition} (pooled : call.pooled = true) {history : List Command}
    (connected : call.Connected runtime history) :
    Ends (call.run runtime) history (fun _ after => next.Connected runtime after)
      (fun _ after => next.Connected runtime after) := by
  have kept : ∀ {after}, Sent ReaderSends history after → next.Connected runtime after := by
    intro after sent _
    exact sent.keeps (readerSession runtime) (connected pooled)
  apply (sends_call readOnly refuses call history (session_of_connected connected)).mono
  · exact fun _ _ sent => kept sent
  · exact fun _ _ sent => kept sent

/-- Under a read compatibility Binding no call sends a statement that writes
or hands one out, and a call that is meant to write is refused. -/
theorem never_writes (runtime : Runtime Document Definition Row)
    (readOnly : runtime.settings.readOnly = true) (refuses : RefusesLocks runtime)
    (call : Call Definition) (history : List Command)
    (connected : call.Connected runtime history) :
    Ends (call.run runtime) history
      (fun handed after => Sent (fun command => command.writes = false) history after ∧
        (∀ command ∈ handed, command.writes = false) ∧ call.mutates = false)
      (fun _ after => Sent (fun command => command.writes = false) history after) := by
  have holds := session_of_connected connected
  have sent := sends_call readOnly refuses call history holds
  have hands := hands_call readOnly call history
  unfold Ends at sent hands ⊢
  cases equal : (call.run runtime).run history with
  | error error after =>
      rw [equal] at sent
      exact sent.mono fun _ => ReaderSends.reads
  | ok handed after =>
      rw [equal] at sent hands
      refine ⟨sent.mono fun _ => ReaderSends.reads, hands, ?_⟩
      cases mutates : call.mutates with
      | false => rfl
      | true =>
          have raised := raises_mutation readOnly refuses mutates history holds
          unfold Ends at raised
          rw [equal] at raised
          exact raised.elim

/-! ### A reader of the work queue -/

def readerSettings : PostgreSQLSettings := { workSettings with readOnly := true }

/-- A server that refuses every lock, and answers with one row. -/
def refusingServer : Server Unit := fun history =>
  if history.getLast?.any Command.locks then
    .error (.raised "cannot execute SELECT FOR UPDATE in a read-only transaction")
  else .ok [()]

def silentDriver : Driver Json.Object Unit Unit where
  instant := fun _ => 0
  flag := fun _ => false
  text := fun _ => ""
  intent := fun _ => .error "not an intent"
  state := fun _ => none
  revision := fun _ => 0
  released := ⟨fun data => data.eventId, fun _ => 0⟩
  shaped := fun _ _ => true
  replayed := fun _ _ => .ok ()
  replayKey := fun _ => none
  result := fun _ => .ok ()
  registry := fun _ => .ok ()
  publish := fun _ _ => pure ()
  definition := fun _ _ _ => .ok ()
  reference := fun _ => .ok workLayout.ref

def readerRuntime : Runtime Json.Object Unit Unit where
  settings := readerSettings
  operations := { workOperations with settings := readerSettings }
  dml := { workCompiler with settings := readerSettings }
  operationsBuilt := rfl
  dmlBuilt := rfl
  bindingId := "postgresql-test"
  server := refusingServer
  driver := silentDriver
  digests := ⟨fun _ => "physical", fun _ _ => "plan", fun _ => "registry"⟩

theorem refusingServer_refuses : RefusesLocks readerRuntime := by
  intro earlier _ command _ locks
  change ∃ error, refusingServer _ = _
  unfold refusingServer
  rw [List.getLast?_append, List.getLast?_singleton]
  simp [locks]

/-- A claim on the work queue. -/
def readerClaim : Call Unit :=
  .claim ⟨⟨⟨"tenant", [("workspace", "main")]⟩, "structured:example.work",
    ⟨"index", "structured", "items", "v1", []⟩, 3, 10, 1000, Nat.succ_pos 2, Nat.succ_pos 9⟩,
    readerSettings, workLayout⟩ "worker" 1 10 none

set_option maxRecDepth 4000 in
/-- The claim reaches the lock, which ends it. -/
theorem reader_never_writes :
    (∃ error after, (readerClaim.run readerRuntime).run readerRuntime.configured =
        .error error after ∧ after.any Command.locks = true) ∧
      Ends (readerClaim.run readerRuntime) readerRuntime.configured
        (fun handed after =>
          Sent (fun command => command.writes = false) readerRuntime.configured after ∧
            (∀ command ∈ handed, command.writes = false) ∧ readerClaim.mutates = false)
        (fun _ after =>
          Sent (fun command => command.writes = false) readerRuntime.configured after) :=
  ⟨⟨_, _, rfl, by decide⟩, never_writes readerRuntime rfl refusingServer_refuses readerClaim
    readerRuntime.configured fun _ => ⟨[], (List.append_nil _).symm, List.forall_mem_nil _⟩⟩

end Bindings

end MeridianPostgreSQL.Compatibility
