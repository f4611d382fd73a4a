import MeridianPostgreSQL.Query.Dml
import MeridianPostgreSQL.Query.PlanText

/-! # Statements that read

A statement reads when none of its texts has a word that changes rows or
relations. Every plan compiles to such a statement, and so does a `get`. -/

namespace MeridianPostgreSQL.Query

open Settings

section Pieces

variable {Origin Value : Type}

/-- The commands that change rows or relations. -/
def changingWords : List String :=
  ["INSERT", "UPDATE", "DELETE", "MERGE", "TRUNCATE", "CREATE", "ALTER", "DROP"]

def mentions (text word : List Char) : Bool := text.tails.any word.isPrefixOf

def plainText (text : List Char) : Bool :=
  changingWords.all fun word => !mentions text word.toList

def Piece.reads : Piece Origin → Bool
  | .text sql => plainText sql.toList
  | _ => true

def Sql.Reads (command : Sql Origin) : Prop := ∀ piece ∈ command, piece.reads = true

theorem reads_ofList {sql : String} {characters : List Char}
    (same : sql = String.ofList characters) (plain : plainText characters = true) :
    (Piece.text sql : Piece Origin).reads = true := by
  subst same
  simpa [Piece.reads] using plain

@[simp] theorem reads_nil : Sql.Reads ([] : Sql Origin) := nofun

@[simp] theorem reads_cons {piece : Piece Origin} {rest : Sql Origin} :
    Sql.Reads (piece :: rest) ↔ piece.reads = true ∧ Sql.Reads rest := List.forall_mem_cons

@[simp] theorem reads_append {left right : Sql Origin} :
    Sql.Reads (left ++ right) ↔ left.Reads ∧ right.Reads := List.forall_mem_append

@[simp] theorem reads_name (identifier : String) :
    (Piece.name identifier : Piece Origin).reads = true := rfl

@[simp] theorem reads_slot (origin : Origin) :
    (Piece.slot origin : Piece Origin).reads = true := rfl

theorem reads_joined {separator : String} {parts : List (Sql Origin)}
    (plain : (Piece.text separator : Piece Origin).reads = true)
    (each : ∀ part ∈ parts, part.Reads) : Sql.Reads (joined separator parts) := by
  intro piece member
  rcases mem_joined member with rfl | ⟨part, listed, held⟩
  · exact plain
  · exact each part listed piece held

theorem reads_ident (parts : List String) : Sql.Reads (ident parts : Sql Origin) := by
  unfold ident
  induction parts with
  | nil => exact reads_nil
  | cons first rest induction =>
      cases rest with
      | nil => exact reads_cons.mpr ⟨rfl, reads_nil⟩
      | cons second rest =>
          rw [List.map_cons, List.map_cons, List.intersperse_cons_cons]
          exact reads_cons.mpr ⟨rfl, reads_cons.mpr ⟨rfl, induction⟩⟩

variable {parts : List (BoundStatement Origin Value)}
  (each : ∀ part ∈ parts, part.command.Reads)

include each

theorem reads_commands {separator : String}
    (plain : (Piece.text separator : Piece Origin).reads = true) :
    Sql.Reads (joined separator (parts.map BoundStatement.command)) := by
  apply reads_joined plain
  intro command listed
  rcases List.mem_map.mp listed with ⟨part, member, rfl⟩
  exact each part member

theorem reads_conjunction : (conjunction parts).command.Reads := by
  cases parts with
  | nil => exact reads_cons.mpr ⟨rfl, reads_nil⟩
  | cons part rest =>
      have list := reads_commands each (show (Piece.text ") AND (" : Piece Origin).reads from rfl)
      exact reads_append.mpr ⟨reads_append.mpr ⟨reads_cons.mpr ⟨rfl, reads_nil⟩, list⟩,
        reads_cons.mpr ⟨rfl, reads_nil⟩⟩

theorem reads_disjunction : (disjunction parts).command.Reads := by
  cases parts with
  | nil => exact reads_cons.mpr ⟨rfl, reads_nil⟩
  | cons part rest =>
      have list := reads_commands each (show (Piece.text ") OR (" : Piece Origin).reads from rfl)
      exact reads_append.mpr ⟨reads_append.mpr ⟨reads_cons.mpr ⟨rfl, reads_nil⟩, list⟩,
        reads_cons.mpr ⟨rfl, reads_nil⟩⟩

end Pieces

/-! ## Expressions -/

section Expressions

variable {targets : Targets} {site : Site}

theorem reads_of_index {expressions : List Expression} {statements : List QueryStatement}
    (length : expressions.length = statements.length)
    (each : ∀ {index : Nat} {expression statement}, expressions[index]? = some expression →
      statements[index]? = some statement → Sql.Reads statement.command) :
    ∀ statement ∈ statements, statement.command.Reads := by
  intro statement listed
  rcases List.getElem?_of_mem listed with ⟨index, found⟩
  have bound : index < expressions.length := by
    rw [length]
    exact (List.getElem?_eq_some_iff.mp found).1
  exact each (List.getElem?_eq_getElem bound) found

theorem boundaryStatement_reads {operator : String} {operand boundary : QueryStatement}
    (plain : (Piece.text operator : Piece Origin).reads = true) (left : operand.command.Reads)
    (right : boundary.command.Reads) :
    (boundaryStatement operator operand boundary).command.Reads := by
  simp [boundaryStatement, plain, left, right]

theorem rangeStatement_reads {operand : QueryStatement} {start finish : Option QueryStatement}
    {includeStart includeEnd : Bool} (operandReads : operand.command.Reads)
    (starts : ∀ boundary ∈ start, boundary.command.Reads)
    (finishes : ∀ boundary ∈ finish, boundary.command.Reads) :
    (rangeStatement operand start finish includeStart includeEnd).command.Reads := by
  apply reads_conjunction
  intro part listed
  rcases List.mem_append.mp listed with before | after
  · rcases Option.map_eq_some_iff.mp (Option.mem_toList.mp before) with ⟨boundary, given, rfl⟩
    exact boundaryStatement_reads (by cases includeStart <;> rfl) operandReads
      (starts boundary given)
  · rcases Option.map_eq_some_iff.mp (Option.mem_toList.mp after) with ⟨boundary, given, rfl⟩
    exact boundaryStatement_reads (by cases includeEnd <;> rfl) operandReads
      (finishes boundary given)

theorem Compiles.reads {path : List Nat} {expression : Expression} {statement : QueryStatement}
    (compiles : Compiles targets site path expression statement) : statement.command.Reads := by
  induction compiles with
  | field named => exact reads_ident _
  | literal => simp [literalStatement, slot]
  | point =>
      simp only [pointStatement, slot, reads_cons, reads_slot, reads_nil, and_true, true_and]
      exact ⟨reads_ofList rfl rfl, rfl, reads_ofList rfl rfl⟩
  | @unary path kind operand statement operand_compiles induction =>
      cases kind <;> simpa [unaryStatement, induction] using ⟨rfl, rfl, rfl⟩
  | @boolean path kind operands statements length each induction =>
      cases kind with
      | and => exact reads_conjunction (reads_of_index length induction)
      | or => exact reads_disjunction (reads_of_index length induction)
  | @binary path kind leftValue rightValue left right leftAdapted rightAdapted left_compiles
      right_compiles left_adapts right_adapts leftReads rightReads =>
      rw [← left_adapts.command] at leftReads
      rw [← right_adapts.command] at rightReads
      cases kind <;> simpa [binaryStatement, leftReads, rightReads] using ⟨rfl, rfl, rfl⟩
  | hasPrefix left_compiles right_compiles leftReads rightReads =>
      simp only [prefixStatement, reads_append, reads_cons, reads_nil, leftReads, rightReads,
        and_true]
      exact ⟨⟨rfl, reads_ofList rfl rfl⟩, reads_ofList rfl rfl⟩
  | containsJson leftField json left_compiles right_compiles right_adapts leftReads rightReads =>
      rw [← right_adapts.command] at rightReads
      simpa [containsStatement, leftReads, rightReads] using ⟨rfl, rfl⟩
  | containsText leftField left_compiles right_compiles leftReads rightReads =>
      simpa [positionStatement, leftReads, rightReads] using ⟨rfl, rfl, rfl⟩
  | @isNull path operand expected statement operand_compiles induction =>
      cases expected <;> simpa [isNullStatement, induction] using ⟨rfl, rfl⟩
  | @membership path negated operand values statement items adapted operand_compiles nonempty
      length each adapts operandReads induction =>
      have items : ∀ item ∈ adapted, item.command.Reads := by
        apply reads_of_index (length.trans adapts.length_eq)
        intro index value item found held
        rcases adapts_at adapts held with ⟨before, listed, changed⟩
        rw [changed.command]
        exact induction found listed
      have list : Sql.Reads (joined ", " (adapted.map BoundStatement.command)) :=
        reads_commands items rfl
      cases negated <;>
        simpa [membershipStatement, operandReads, list] using ⟨rfl, rfl, rfl⟩
  | @timestampRange path operand start finish includeStart includeEnd statement startStatement
      finishStatement operand_compiles start_same start_compiles finish_same finish_compiles
      operandReads startReads finishReads =>
      apply rangeStatement_reads operandReads
      · rintro boundary rfl
        rcases Option.isSome_iff_exists.mp start_same with ⟨expression, given⟩
        exact startReads given rfl
      · rintro boundary rfl
        rcases Option.isSome_iff_exists.mp finish_same with ⟨expression, given⟩
        exact finishReads given rfl
  | documentPath document_compiles induction =>
      simpa [documentPathStatement, slot, induction] using ⟨rfl, rfl, rfl⟩
  | @fullText path fields query statements nonempty length each induction =>
      have list : Sql.Reads (joined ", " (statements.map BoundStatement.command)) :=
        reads_commands (reads_of_index length induction) rfl
      simp only [fullTextStatement, slot, reads_append, reads_cons, reads_slot, reads_nil, list,
        and_true, true_and]
      exact ⟨reads_ofList rfl rfl, reads_ofList rfl rfl, rfl⟩
  | distance left_compiles right_compiles leftReads rightReads =>
      simpa [distanceStatement, leftReads, rightReads] using ⟨rfl, rfl, rfl⟩
  | distanceWithin left_compiles right_compiles leftReads rightReads =>
      simpa [distanceWithinStatement, slot, leftReads, rightReads] using ⟨rfl, rfl, rfl⟩
  | count => exact reads_cons.mpr ⟨rfl, reads_nil⟩
  | @aggregate path function operand distinct statement known operand_compiles induction =>
      cases function <;> cases distinct <;>
        simpa [aggregateStatement, AggregateFunction.call, induction] using ⟨rfl, rfl, rfl⟩

theorem compile_reads {root : Expression} {path : List Nat} {statement : QueryStatement}
    (compiled : Query.compile targets site path root = .ok statement) : statement.command.Reads :=
  (compile_compiles path root statement compiled).reads

end Expressions

/-! ## Plans -/

namespace PostgreSQLQueryTranslator

variable {translator : PostgreSQLQueryTranslator} {operation : QueryOperation}
  {targets : Targets} {layout : ResourceLayout}

theorem reads_scopePredicate (tableAlias : String) :
    (translator.scopePredicate tableAlias).command.Reads := by
  apply reads_joined rfl
  intro part listed
  rcases List.mem_map.mp listed with ⟨column, _, rfl⟩
  simpa using ⟨reads_ident _, rfl⟩

theorem reads_tableName (settings : PostgreSQLSettings) : (tableName settings layout).Reads :=
  reads_ident _

theorem reads_aliased {statement : QueryStatement} {name : String}
    (reads : statement.command.Reads) : (aliased statement name).command.Reads := by
  have plain : (Piece.text " AS " : Piece Origin).reads = true := rfl
  simp [aliased, reads, plain]

theorem reads_commaSeparated {parts : List QueryStatement}
    (each : ∀ part ∈ parts, part.command.Reads) : (commaSeparated parts).command.Reads :=
  reads_commands each rfl

theorem reads_fieldColumn (tableAlias : String) (field : FieldLayout) :
    (fieldColumn tableAlias field).Reads := by
  unfold fieldColumn
  split
  · simp only [reads_append, reads_cons, reads_nil, reads_ident, and_true]
    exact ⟨⟨reads_ofList rfl rfl, reads_ofList rfl rfl⟩, reads_ofList rfl rfl⟩
  · exact reads_ident _

theorem reads_recordColumns (tableAlias : String) :
    ∀ column ∈ recordColumns layout tableAlias, column.command.Reads := by
  intro column listed
  rcases List.mem_append.mp listed with field | metadata
  · rcases List.mem_map.mp field with ⟨held, _, rfl⟩
    exact reads_aliased (reads_fieldColumn tableAlias held)
  · rcases List.mem_map.mp metadata with ⟨named, _, rfl⟩
    exact reads_aliased (reads_ident _)

theorem mapM_each {α β : Type} {items : List α} {f : α → Compiled β} {results : List β}
    (good : β → Prop) (mapped : items.mapM f = .ok results)
    (each : ∀ item result, f item = .ok result → good result) : ∀ result ∈ results, good result := by
  have pairs := mapM_eq_ok mapped
  clear mapped
  induction pairs with
  | nil => exact nofun
  | cons made _ induction => exact List.forall_mem_cons.mpr ⟨each _ _ made, induction⟩

theorem reads_selectedColumns {tableAlias : String} {columns : List QueryStatement}
    (compiled : selectedColumns operation layout tableAlias targets = .ok columns) :
    ∀ column ∈ columns, column.command.Reads := by
  unfold selectedColumns at compiled
  split at compiled
  · cases compiled
    exact reads_recordColumns tableAlias
  · apply mapM_each (fun column => column.command.Reads) compiled
    intro projection column made
    rcases bind_eq_ok made with ⟨statement, statementOk, made⟩
    cases made
    exact reads_aliased (compile_reads statementOk)

theorem reads_order {keys : List OrderKey}
    (compiled : order operation layout targets = .ok keys) :
    ∀ key ∈ keys, key.statement.command.Reads := by
  rcases bind_eq_ok compiled with ⟨chosen, chosenOk, compiled⟩
  rcases bind_eq_ok compiled with ⟨appended, appendedOk, compiled⟩
  cases compiled
  have items : ∀ key ∈ chosen, key.statement.command.Reads := by
    apply mapM_each (fun key => key.statement.command.Reads) chosenOk
    intro item key made
    rcases bind_eq_ok made with ⟨statement, statementOk, made⟩
    cases made
    exact compile_reads statementOk
  have identity : ∀ key ∈ appended, key.statement.command.Reads := by
    apply mapM_each (fun key => key.statement.command.Reads) appendedOk
    intro name key made
    split at made
    · cases made
      exact reads_ident _
    · cases made
  exact List.forall_mem_append.mpr ⟨items, identity⟩

theorem reads_orderBy {keys : List OrderKey} (each : ∀ key ∈ keys, key.statement.command.Reads) :
    (orderBy keys).command.Reads := by
  have sorted : Sql.Reads (joined ", " (keys.map fun key =>
      key.statement.command ++ [Piece.text key.suffix])) := by
    apply reads_joined rfl
    intro part listed
    rcases List.mem_map.mp listed with ⟨key, member, rfl⟩
    have suffix : (Piece.text key.suffix : Piece Origin).reads = true := by
      unfold OrderKey.suffix
      split <;> exact reads_ofList rfl rfl
    simpa [each key member] using suffix
  have plain : (Piece.text " ORDER BY " : Piece Origin).reads = true := reads_ofList rfl rfl
  simp [orderBy, sorted, plain]

theorem reads_after {key : OrderKey} (reads : key.statement.command.Reads) (index : Nat)
    (value : Json) : (after key index value).command.Reads := by
  have operator : (Piece.text key.direction.after : Piece Origin).reads = true := by
    cases key.direction <;> rfl
  unfold after
  dsimp only
  split
  · cases key.nulls with
    | first =>
        have plain : (Piece.text " IS NOT NULL" : Piece Origin).reads = true := rfl
        simp [reads, plain]
    | last => exact reads_cons.mpr ⟨rfl, reads_nil⟩
  · cases key.nulls with
    | first => simpa [reads, operator] using ⟨rfl, rfl, rfl⟩
    | last => simpa [reads, operator] using ⟨rfl, rfl, rfl, rfl⟩

theorem reads_keysetPredicate {keys : List (OrderKey × Json)}
    (each : ∀ entry ∈ keys, entry.1.statement.command.Reads) :
    (keysetPredicate keys).command.Reads := by
  apply reads_disjunction
  intro branch listed
  rcases List.mem_map.mp listed with ⟨index, _, rfl⟩
  apply reads_conjunction
  intro part inside
  rcases List.mem_append.mp inside with before | last
  · rcases List.mem_map.mp before with ⟨⟨⟨key, value⟩, position⟩, present, rfl⟩
    have found := List.mem_of_getElem? (List.mk_mem_zipIdx_iff_getElem?.mp present)
    have keyReads := each _ (List.mem_of_mem_take found)
    have plain : (Piece.text " IS NOT DISTINCT FROM " : Piece Origin).reads = true :=
      reads_ofList rfl rfl
    simp [notDistinct, keyReads, plain]
  · rcases Option.map_eq_some_iff.mp (Option.mem_toList.mp last) with ⟨entry, found, rfl⟩
    exact reads_after (each entry (List.mem_of_getElem? found)) index entry.2

theorem reads_cursorPredicate {context : TranslationContext} {keys : List OrderKey}
    {predicate restricted : QueryStatement} (each : ∀ key ∈ keys, key.statement.command.Reads)
    (reads : predicate.command.Reads)
    (compiled : translator.cursorPredicate operation context keys predicate = .ok restricted) :
    restricted.command.Reads := by
  unfold cursorPredicate at compiled
  split at compiled
  · rcases bind_eq_ok compiled with ⟨keyset, keysetOk, compiled⟩
    cases compiled
    have keysetReads : keyset.command.Reads := by
      unfold PostgreSQLQueryTranslator.keyset at keysetOk
      split at keysetOk
      · rcases bind_eq_ok keysetOk with ⟨payload, _, keysetOk⟩
        split at keysetOk
        · exact nomatch keysetOk
        · cases keysetOk
          apply reads_keysetPredicate
          intro entry zipped
          exact each entry.1 (List.of_mem_zip zipped).1
      · exact nomatch keysetOk
    apply reads_conjunction
    exact List.forall_mem_cons.mpr ⟨reads, List.forall_mem_cons.mpr ⟨keysetReads, nofun⟩⟩
  · cases compiled
    exact reads

theorem reads_joinClause {join : Join} {index : Nat} {clause : QueryStatement}
    (compiled : translator.joinClause targets join index = .ok clause) :
    clause.command.Reads := by
  rcases bind_eq_ok compiled with ⟨layout, _, compiled⟩
  rcases bind_eq_ok compiled with ⟨condition, conditionOk, compiled⟩
  rcases bind_eq_ok compiled with ⟨tableAlias, aliasOk, compiled⟩
  cases compiled
  have predicate : (conjunction [condition, translator.scopePredicate tableAlias]).command.Reads := by
    apply reads_conjunction
    exact List.forall_mem_cons.mpr ⟨compile_reads conditionOk,
      List.forall_mem_cons.mpr ⟨reads_scopePredicate tableAlias, nofun⟩⟩
  cases join.left <;>
    simpa [predicate, reads_tableName] using ⟨reads_ofList rfl rfl, rfl, rfl⟩

theorem reads_filterPredicate {tableAlias : String} {filter : Option Expression}
    {predicate : QueryStatement}
    (compiled : translator.filterPredicate targets tableAlias filter = .ok predicate) :
    predicate.command.Reads := by
  unfold filterPredicate at compiled
  split at compiled
  · cases compiled
    exact reads_scopePredicate tableAlias
  · rcases bind_eq_ok compiled with ⟨condition, conditionOk, compiled⟩
    cases compiled
    apply reads_conjunction
    exact List.forall_mem_cons.mpr ⟨reads_scopePredicate tableAlias,
      List.forall_mem_cons.mpr ⟨compile_reads conditionOk, List.forall_mem_nil _⟩⟩

theorem reads_aggregateStatement {source predicate statement : QueryStatement}
    (sourceReads : source.command.Reads) (predicateReads : predicate.command.Reads)
    (compiled : aggregateStatement operation targets source predicate = .ok statement) :
    statement.command.Reads := by
  rcases bind_eq_ok compiled with ⟨select, selectOk, compiled⟩
  rcases bind_eq_ok compiled with ⟨group, groupOk, compiled⟩
  cases compiled
  have selects : select.command.Reads := by
    rcases bind_eq_ok selectOk with ⟨groups, groupsOk, selectOk⟩
    rcases bind_eq_ok selectOk with ⟨aggregates, aggregatesOk, selectOk⟩
    cases selectOk
    apply reads_commaSeparated
    rw [List.forall_mem_append]
    constructor
    · apply mapM_each (fun group => group.command.Reads) groupsOk
      intro grouping statement made
      rcases bind_eq_ok made with ⟨inner, innerOk, made⟩
      cases made
      exact reads_aliased (compile_reads innerOk)
    · apply mapM_each (fun aggregate => aggregate.command.Reads) aggregatesOk
      intro aggregate statement made
      rcases bind_eq_ok made with ⟨inner, innerOk, made⟩
      cases made
      exact reads_aliased (compile_reads innerOk)
  have groups : group.command.Reads := by
    unfold grouping at groupOk
    split at groupOk
    · cases groupOk
      exact reads_cons.mpr ⟨rfl, reads_nil⟩
    · rcases bind_eq_ok groupOk with ⟨groups, groupsOk, groupOk⟩
      cases groupOk
      have list : Sql.Reads (joined ", " (groups.map BoundStatement.command)) := by
        refine reads_commands ?_ rfl
        exact mapM_each (fun group => group.command.Reads) groupsOk fun _ _ made =>
          compile_reads made
      have plain : (Piece.text " GROUP BY " : Piece Origin).reads = true := reads_ofList rfl rfl
      simp [list, plain]
  simpa [selects, groups, sourceReads, predicateReads] using ⟨reads_ofList rfl rfl, rfl⟩

theorem reads_recordStatement {context : TranslationContext} {tableAlias : String}
    {source predicate : QueryStatement} {record : QueryStatement × List String}
    (sourceReads : source.command.Reads) (predicateReads : predicate.command.Reads)
    (compiled : translator.recordStatement operation context layout tableAlias targets source
      predicate = .ok record) : record.1.command.Reads := by
  rcases bind_eq_ok compiled with ⟨keys, keysOk, compiled⟩
  rcases bind_eq_ok compiled with ⟨select, selectOk, compiled⟩
  rcases bind_eq_ok compiled with ⟨restricted, restrictedOk, compiled⟩
  cases compiled
  have sorted := reads_order keysOk
  have selects : select.command.Reads := by
    rcases bind_eq_ok selectOk with ⟨columns, columnsOk, selectOk⟩
    cases selectOk
    apply reads_commaSeparated
    rw [List.forall_mem_append]
    refine ⟨reads_selectedColumns columnsOk, ?_⟩
    intro column listed
    rcases List.mem_map.mp listed with ⟨entry, zipped, rfl⟩
    exact reads_aliased (sorted entry.1 (List.of_mem_zip zipped).1)
  simpa [selects, sourceReads, reads_cursorPredicate sorted predicateReads restrictedOk,
    reads_orderBy sorted] using ⟨reads_ofList rfl rfl, rfl, rfl⟩

theorem reads_compileSelect {context : TranslationContext} {compiled : CompiledQuery}
    (accepted : translator.compileSelect operation context = .ok compiled) :
    compiled.statement.command.Reads := by
  rcases bind_eq_ok accepted with ⟨targets, targetsOk, accepted⟩
  rcases bind_eq_ok accepted with ⟨base, baseOk, accepted⟩
  rcases bind_eq_ok accepted with ⟨layout, layoutOk, accepted⟩
  rcases bind_eq_ok accepted with ⟨tableAlias, aliasOk, accepted⟩
  rcases bind_eq_ok accepted with ⟨joins, joinsOk, accepted⟩
  rcases bind_eq_ok accepted with ⟨predicate, predicateOk, accepted⟩
  have restricted := reads_filterPredicate predicateOk
  have source : Sql.Reads ([Piece.text " FROM "] ++ tableName translator.settings layout ++
      [Piece.text " AS ", .name tableAlias] ++ (joins.map BoundStatement.command).flatten) := by
    have clauses : Sql.Reads (joins.map BoundStatement.command).flatten := by
      intro piece member
      rcases List.mem_flatten.mp member with ⟨command, listed, held⟩
      rcases List.mem_map.mp listed with ⟨clause, inside, rfl⟩
      exact mapM_each (fun clause => clause.command.Reads) joinsOk
        (fun _ _ made => reads_joinClause made) clause inside piece held
    simpa [clauses, reads_tableName] using ⟨rfl, rfl⟩
  split at accepted
  · rcases bind_eq_ok accepted with ⟨statement, statementOk, accepted⟩
    cases accepted
    exact reads_aggregateStatement source restricted statementOk
  · rcases bind_eq_ok accepted with ⟨record, recordOk, accepted⟩
    cases accepted
    exact reads_recordStatement source restricted recordOk

theorem reads_relationScope {traversal : Traversal} {ref : String} {index : Nat}
    {scope : QueryStatement}
    (compiled : translator.relationScope traversal ref index layout = .ok scope) :
    scope.command.Reads := by
  unfold relationScope at compiled
  split at compiled
  · cases compiled
    exact reads_scopePredicate "r"
  · rcases bind_eq_ok compiled with ⟨condition, conditionOk, compiled⟩
    cases compiled
    apply reads_conjunction
    exact List.forall_mem_cons.mpr ⟨reads_scopePredicate "r",
      List.forall_mem_cons.mpr ⟨compile_reads conditionOk, List.forall_mem_nil _⟩⟩

theorem edgeColumns_read : Sql.Reads forwardColumns ∧ Sql.Reads reverseColumns := by
  simp only [forwardColumns, reverseColumns, reads_cons, reads_nil, and_true]
  and_intros
  all_goals exact reads_ofList rfl rfl

theorem reads_edgeParts {traversal : Traversal} {ref : String} {index : Nat}
    {edges : List QueryStatement}
    (compiled : translator.edgeParts traversal ref index = .ok edges) :
    ∀ edge ∈ edges, edge.command.Reads := by
  unfold edgeParts at compiled
  rcases bind_eq_ok compiled with ⟨layout, _, compiled⟩
  split at compiled
  · cases compiled
  · rcases bind_eq_ok compiled with ⟨scope, scopeOk, compiled⟩
    cases compiled
    have part : ∀ columns, Sql.Reads columns →
        (translator.edgePart columns index ref layout scope).command.Reads := by
      intro columns reads
      simpa [edgePart, reads, reads_tableName, reads_relationScope scopeOk] using
        ⟨reads_ofList rfl rfl, reads_ofList rfl rfl⟩
    rw [List.forall_mem_append]
    constructor
    · split
      · exact List.forall_mem_cons.mpr ⟨part _ edgeColumns_read.1, List.forall_mem_nil _⟩
      · exact List.forall_mem_nil _
    · split
      · exact List.forall_mem_cons.mpr ⟨part _ edgeColumns_read.2, List.forall_mem_nil _⟩
      · exact List.forall_mem_nil _

theorem walk_reads : Sql.Reads (walkStart ++ walkEnd) := by
  simp only [walkStart, walkEnd, List.cons_append, List.nil_append, reads_cons, reads_slot,
    reads_nil, true_and, and_true]
  and_intros
  all_goals exact reads_ofList rfl rfl

theorem reads_compileTraversal {traversal : Traversal} {context : TranslationContext}
    {compiled : CompiledQuery}
    (accepted : translator.compileTraversal operation traversal context = .ok compiled) :
    compiled.statement.command.Reads := by
  rcases compileTraversal_cases accepted with ⟨edges, edgesOk, rfl⟩
  have each : ∀ edge ∈ edges.flatten, edge.command.Reads := by
    intro edge listed
    rcases List.mem_flatten.mp listed with ⟨part, member, inside⟩
    exact mapM_each (fun part => ∀ edge ∈ part, edge.command.Reads) edgesOk
      (fun _ _ made => reads_edgeParts made) part member edge inside
  have union : Sql.Reads (joined " UNION ALL " (edges.flatten.map BoundStatement.command)) :=
    reads_commands each (reads_ofList rfl rfl)
  have walk := reads_append.mp walk_reads
  have start : (Piece.text "WITH RECURSIVE edges AS (" : Piece Origin).reads = true :=
    reads_ofList rfl rfl
  rw [traversalStatement]
  simp only [reads_append, reads_cons, reads_nil, start, union, walk, and_self]

/-- Every plan is compiled to a statement that reads. -/
theorem compile_reads {plan : Plan} {context : TranslationContext} {compiled : CompiledQuery}
    (accepted : translator.compile plan context = .ok compiled) :
    compiled.statement.command.Reads := by
  rcases compile_cases accepted with ⟨_, equal⟩ | ⟨_, _, traversal, _, walked⟩ |
    ⟨_, _, _, selected⟩
  · rw [equal]
    exact reads_cons.mpr ⟨reads_ofList rfl rfl, reads_nil⟩
  · exact reads_compileTraversal walked
  · exact reads_compileSelect selected

end PostgreSQLQueryTranslator

/-! ## Reads of one record -/

theorem DMLCompiler.condition_reads {compiler : DMLCompiler} {layout : ResourceLayout}
    {filter : Json.Object} {context : OperationContext} {tableAlias : String}
    {condition : DMLStatement}
    (compiled : compiler.condition layout filter context tableAlias = .ok condition) :
    condition.command.Reads := by
  rcases bind_eq_ok compiled with ⟨scope, _, compiled⟩
  rcases bind_eq_ok compiled with ⟨expression, _, compiled⟩
  have scopeReads : (scopeCondition tableAlias scope).command.Reads := by
    apply reads_joined rfl
    intro part listed
    rcases List.mem_map.mp listed with ⟨entry, _, rfl⟩
    simpa using ⟨reads_ident _, rfl⟩
  cases expression with
  | none =>
      cases compiled
      exact scopeReads
  | some expression =>
      rcases bind_eq_ok compiled with ⟨statement, statementOk, compiled⟩
      cases compiled
      apply reads_conjunction
      exact List.forall_mem_cons.mpr ⟨scopeReads,
        List.forall_mem_cons.mpr ⟨Query.compile_reads statementOk, nofun⟩⟩

theorem DMLCompiler.get_reads {compiler : DMLCompiler} {layout : ResourceLayout}
    {input : Json.Object} {context : OperationContext} {command : DMLCommand}
    (compiled : compiler.get layout input context = .ok command) :
    command.statement.command.Reads := by
  unfold DMLCompiler.get at compiled
  split at compiled
  · rcases bind_eq_ok compiled with ⟨condition, conditionOk, compiled⟩
    cases compiled
    have columns : Sql.Reads (returning layout "t") :=
      reads_commands (PostgreSQLQueryTranslator.reads_recordColumns "t") rfl
    simpa [columns, condition_reads conditionOk, DMLCompiler.table,
      PostgreSQLQueryTranslator.reads_tableName] using
        ⟨reads_ofList rfl rfl, rfl, reads_ofList rfl rfl, rfl⟩
  · exact nomatch compiled

end MeridianPostgreSQL.Query
