import MeridianPostgreSQL.Query.PlanAlignment

/-! # Pages of a result

What `normalize_result` makes of the rows of a statement, and which rows of an
unbounded statement it leaves out. -/

namespace MeridianPostgreSQL.Query

open Settings

/-! ## Normalized results -/

/-- A row of a result, as the session passes it on: its columns by name. -/
abbrev Row := List (String × Json)

inductive ResultError where
  | key (name : String)
  | runtime (message : String)

inductive ResultData where
  | records (rows : List Row)
  | single (row : Option Row)

structure NormalizedQueryResult where
  data : ResultData
  cursor : Option String
  provenance : List (String × String)

/-- The rows that a response holds. -/
def NormalizedQueryResult.rows (result : NormalizedQueryResult) : List Row :=
  match result.data with
  | .records rows => rows
  | .single row => row.toList

/-- The columns of a row that are not internal. -/
def CompiledQuery.visible (compiled : CompiledQuery) (row : Row) : Row :=
  row.filter fun column => column.1 ∉ compiled.cursorFields

def pageProvenance : List (String × String) :=
  [("adapter", "postgresql"), ("consistency", "strong"), ("pagination", "live-keyset")]

namespace PostgreSQLQueryTranslator

variable (translator : PostgreSQLQueryTranslator)

/-- `row[field]` -/
def column (row : Row) (field : String) : Except ResultError Json :=
  match row.lookup field with
  | some value => .ok value
  | none => .error (.key field)

/-- The cursor of a page that has more rows after it. -/
def nextCursor (compiled : CompiledQuery) (hasMore : Bool) (rows : List Row) :
    Except ResultError (Option String) :=
  match hasMore, rows.getLast?, compiled.cursorFields with
  | true, some last, first :: rest =>
      match translator.cursorSigner, compiled.cursorContext with
      | none, _ => .error (.runtime "pagination requires an Adapter-owned CursorSigner")
      | some _, none => .error (.key "cursorContext")
      | some signer, some context => do
          let sortTuple ← (first :: rest).mapM (column last)
          .ok (some (signer.issue ⟨context.planFingerprint, context.schemaFingerprints,
            context.registryFingerprint, context.scopeFingerprint, sortTuple,
            compiled.pageSize⟩))
  | _, _, _ => .ok none

/-- `normalize_result` -/
def normalizeResult (compiled : CompiledQuery) (raw : List Row) :
    Except ResultError NormalizedQueryResult :=
  if compiled.empty then .ok ⟨.records [], none, [("adapter", "postgresql")]⟩
  else do
    let rows := raw.take compiled.pageSize
    let cursor ← translator.nextCursor compiled (compiled.pageSize < raw.length) rows
    let data := rows.map compiled.visible
    .ok ⟨if compiled.single then .single data.head? else .records data, cursor,
      pageProvenance⟩

end PostgreSQLQueryTranslator

/-! ## Statements and servers -/

/-- The bound of a statement that ends in a `LIMIT`. -/
def rowBound (statement : QueryStatement) : Option Nat :=
  match statement.command.getLast?, statement.parameters.getLast? with
  | some (.slot .limit), some ⟨_, .int bound⟩ => some bound.toNat
  | _, _ => none

/-- `LIMIT`, where there is one. -/
def limitRows (bound : Option Nat) (rows : List Row) : List Row :=
  match bound with
  | some bound => rows.take bound
  | none => rows

/-- A database, by the rows that each statement produces without its `LIMIT` and
the rows it answers. A statement that sorts by nothing does not parse. -/
structure QueryServer where
  produced : QueryStatement → List Row
  answer : QueryStatement → Option (List Row)
  limited : ∀ statement rows, answer statement = some rows →
    rows = limitRows (rowBound statement) (produced statement)
  falsity : produced ⟨[.text "SELECT NULL WHERE FALSE"], []⟩ = []
  sorted : ∀ select parameters, answer
    ⟨select ++ [Piece.text " ORDER BY ", .text " LIMIT ", .slot .limit], parameters⟩ = none

/-! ## Truncation -/

/-- The plan of the next page. -/
def Plan.continued (plan : Plan) (cursor : String) : Plan :=
  { plan with operation := { plan.operation with
      page := { plan.operation.page with cursor := some cursor } } }

/-- The response holds every row, or a cursor that the next request accepts. -/
def Complete (translator : PostgreSQLQueryTranslator) (plan : Plan)
    (context : TranslationContext) (compiled : CompiledQuery) (produced : List Row)
    (result : NormalizedQueryResult) : Prop :=
  result.rows = produced.map compiled.visible ∨
    ∃ cursor, result.cursor = some cursor ∧
      ∃ next, translator.compile (plan.continued cursor) context = .ok next

/-- The number of rows fits the page of a kind that has no cursor. -/
def QueryOperation.Fits (operation : QueryOperation) (count : Nat) : Prop :=
  match operation.kind with
  | .aggregate => count ≤ operation.page.size
  | .traverse => count ≤ min operation.page.size (operation.budget.maxReturnedPaths + 1)
  | .get => count = 0 ∨
      0 < operation.page.size ∧ (count = 1 ∨ operation.page.size < count)
  | _ => operation.page.size = 0 → count = 0

instance (operation : QueryOperation) (count : Nat) : Decidable (operation.Fits count) := by
  unfold QueryOperation.Fits
  cases operation.kind <;> infer_instance

/-! ## Compiled bounds -/

namespace PostgreSQLQueryTranslator

variable {translator : PostgreSQLQueryTranslator} {operation : QueryOperation}
  {context : TranslationContext} {compiled : CompiledQuery}

theorem rowBound_limit {statement : QueryStatement} {bound : Nat}
    (command : statement.command.getLast? = some (.slot .limit))
    (parameter : statement.parameters.getLast? = some ⟨.limit, .int bound⟩) :
    rowBound statement = some bound := by
  simp [rowBound, command, parameter]

theorem rowBound_none {statement : QueryStatement}
    (unlimited : statement.command.getLast? ≠ some (.slot .limit)) :
    rowBound statement = none := by
  unfold rowBound
  split
  · rename_i last _
    exact absurd last unlimited
  · rfl

/-- What a statement without a cursor is compiled to. -/
structure Uncursored (operation : QueryOperation) (bound : Option Nat)
    (compiled : CompiledQuery) : Prop where
  bound : rowBound compiled.statement = bound
  pageSize : compiled.pageSize = operation.page.size
  empty : compiled.empty = false
  single : compiled.single = false
  cursorFields : compiled.cursorFields = []

theorem compileTraversal_uncursored {traversal : Traversal}
    (accepted : translator.compileTraversal operation traversal context = .ok compiled) :
    Uncursored operation
      (some (min operation.page.size operation.budget.maxReturnedPaths + 1)) compiled := by
  rcases compileTraversal_cases accepted with ⟨edges, _, rfl⟩
  refine ⟨?_, rfl, rfl, rfl, rfl⟩
  apply rowBound_limit
  · exact List.getLast?_append_of_ne_nil _ (List.cons_ne_nil _ _)
  · simp [traversalStatement, List.getLast?_append]

/-- No slot of an expression is a limit. -/
theorem compile_unlimited {targets : Targets} {site : Site} {expression : Expression}
    {statement : QueryStatement}
    (accepted : Query.compile targets site [] expression = .ok statement) :
    .limit ∉ slots statement.command := by
  have carries := (compile_compiles [] expression statement accepted).carries
  rw [carries.aligned.slots_eq]
  intro listed
  rcases List.mem_map.mp listed with ⟨parameter, member, origin⟩
  rcases carries.values parameter member with ⟨rest, part, inner, value, same, _⟩
  exact nomatch origin.symm.trans same

theorem grouping_unlimited {targets : Targets} {group : QueryStatement}
    (accepted : grouping operation targets = .ok group) (front : Sql Origin) :
    (front ++ group.command).getLast? ≠ some (.slot .limit) := by
  have slotless : .limit ∉ slots group.command ∧ group.command ≠ [] := by
    unfold grouping at accepted
    split at accepted
    · cases accepted
      simp
    · rcases bind_eq_ok accepted with ⟨groups, groupsOk, accepted⟩
      cases accepted
      have each : ∀ group ∈ groups, .limit ∉ slots group.command :=
        forall_of_mapM_zipIdx (fun group => .limit ∉ slots group.command) groupsOk
          fun _ compiled => compile_unlimited compiled
      simpa using each
  rw [List.getLast?_append_of_ne_nil _ slotless.2]
  intro last
  apply slotless.1
  exact List.mem_filterMap.mpr ⟨_, List.mem_of_getLast? last, rfl⟩

theorem compileSelect_uncursored (kind : operation.kind = .aggregate)
    (accepted : translator.compileSelect operation context = .ok compiled) :
    Uncursored operation none compiled := by
  unfold compileSelect at accepted
  rcases bind_eq_ok accepted with ⟨targets, _, accepted⟩
  rcases bind_eq_ok accepted with ⟨base, _, accepted⟩
  rcases bind_eq_ok accepted with ⟨layout, _, accepted⟩
  rcases bind_eq_ok accepted with ⟨tableAlias, _, accepted⟩
  rcases bind_eq_ok accepted with ⟨joins, _, accepted⟩
  rcases bind_eq_ok accepted with ⟨predicate, _, accepted⟩
  rw [if_pos kind] at accepted
  rcases bind_eq_ok accepted with ⟨statement, statementOk, accepted⟩
  cases accepted
  refine ⟨?_, rfl, rfl, rfl, rfl⟩
  unfold aggregateStatement at statementOk
  rcases bind_eq_ok statementOk with ⟨select, _, statementOk⟩
  rcases bind_eq_ok statementOk with ⟨group, groupOk, statementOk⟩
  cases statementOk
  exact rowBound_none (grouping_unlimited groupOk _)

/-- A statement that sorts by `order` and returns the keys of its last row. -/
structure Cursored (translator : PostgreSQLQueryTranslator) (operation : QueryOperation)
    (context : TranslationContext) (order : List OrderKey) (compiled : CompiledQuery) :
    Prop where
  statement : ∃ select parameters, compiled.statement =
    ⟨select ++ (orderBy order).command ++ [Piece.text " LIMIT ", .slot .limit], parameters⟩
  bound : rowBound compiled.statement = some (operation.page.size + 1)
  pageSize : compiled.pageSize = operation.page.size
  empty : compiled.empty = false
  single : compiled.single = decide (operation.kind = .get)
  cursorFields : compiled.cursorFields.length = order.length
  cursorContext : compiled.cursorContext = some (translator.cursorContext operation context)
  continues : ∀ page keyset,
    translator.keyset { operation with page := page } context order = .ok keyset →
    ∃ next, translator.compileSelect { operation with page := page } context = .ok next

theorem exists_bind {α β : Type} {first : Compiled α} {next : α → Compiled β} {value : α}
    (found : first = .ok value) (rest : ∃ result, next value = .ok result) :
    ∃ result, (first >>= next) = .ok result := by
  rw [found]
  exact rest

theorem compileSelect_cursored (kind : operation.kind ≠ .aggregate)
    (accepted : translator.compileSelect operation context = .ok compiled) :
    ∃ order, Cursored translator operation context order compiled := by
  unfold compileSelect at accepted
  rcases bind_eq_ok accepted with ⟨targets, targetsOk, accepted⟩
  rcases bind_eq_ok accepted with ⟨base, baseOk, accepted⟩
  rcases bind_eq_ok accepted with ⟨layout, layoutOk, accepted⟩
  rcases bind_eq_ok accepted with ⟨tableAlias, aliasOk, accepted⟩
  rcases bind_eq_ok accepted with ⟨joins, joinsOk, accepted⟩
  rcases bind_eq_ok accepted with ⟨predicate, predicateOk, accepted⟩
  rw [if_neg kind] at accepted
  rcases bind_eq_ok accepted with ⟨record, recordOk, accepted⟩
  cases accepted
  unfold recordStatement at recordOk
  rcases bind_eq_ok recordOk with ⟨order, orderOk, recordOk⟩
  rcases bind_eq_ok recordOk with ⟨select, selectOk, recordOk⟩
  rcases bind_eq_ok recordOk with ⟨restricted, restrictedOk, recordOk⟩
  cases recordOk
  refine ⟨order, ⟨_, _, rfl⟩, ?_, rfl, rfl, rfl, ?_, rfl, ?_⟩
  · apply rowBound_limit
    · exact List.getLast?_append_of_ne_nil _ (List.cons_ne_nil _ _)
    · simp
  · simp
  · intro page keyset keysetOk
    have paged : ∃ restricted, translator.cursorPredicate { operation with page := page }
        context order predicate = .ok restricted := by
      unfold cursorPredicate
      split
      · exact exists_bind keysetOk ⟨_, rfl⟩
      · exact ⟨_, rfl⟩
    rcases paged with ⟨_, pagedOk⟩
    have rebuilt : ∃ record, translator.recordStatement { operation with page := page } context
        layout tableAlias targets ⟨[Piece.text " FROM "] ++ tableName translator.settings layout ++
          [Piece.text " AS ", .name tableAlias] ++ (joins.map BoundStatement.command).flatten,
          allParameters joins⟩ predicate = .ok record :=
      exists_bind orderOk (exists_bind selectOk (exists_bind pagedOk ⟨_, rfl⟩))
    rcases rebuilt with ⟨_, rebuiltOk⟩
    refine exists_bind targetsOk (exists_bind baseOk (exists_bind layoutOk
      (exists_bind aliasOk (exists_bind joinsOk (exists_bind predicateOk ?_)))))
    rw [if_neg kind]
    exact exists_bind rebuiltOk ⟨_, rfl⟩

/-! ## Continuing -/

theorem compile_continued {plan : Plan} {cursor : String} {next : CompiledQuery}
    (accepted : translator.compile plan context = .ok compiled)
    (full : plan.emptyResult = false) (walks : plan.operation.kind ≠ .traverse)
    (continued : translator.compileSelect (plan.continued cursor).operation context =
      .ok next) :
    translator.compile (plan.continued cursor) context = .ok next := by
  unfold compile at accepted ⊢
  dsimp only [Plan.continued] at accepted continued ⊢
  repeat' split at accepted
  all_goals try contradiction
  · rename_i empty
    exact absurd empty (by simp [full])
  · rename_i consistency point total binding registry empty _ traverses mutates
    rw [if_neg consistency, if_neg point, if_neg total, if_neg binding, if_neg registry,
      if_neg empty]
    exact continued

theorem mapM_length {α β : Type} {f : α → Except ResultError β} {items : List α}
    {results : List β} (mapped : items.mapM f = .ok results) :
    results.length = items.length := by
  induction items generalizing results with
  | nil =>
      cases mapped
      rfl
  | cons first rest induction =>
      rw [List.mapM_cons] at mapped
      cases head : f first with
      | error error => simp [head, bind, Except.bind] at mapped
      | ok value =>
          cases tail : rest.mapM f with
          | error error => simp [head, tail, bind, Except.bind] at mapped
          | ok values =>
              simp [head, tail, bind, Except.bind, pure, Except.pure] at mapped
              rw [← mapped, List.length_cons, induction tail, List.length_cons]

theorem nextCursor_none {hasMore : Bool} {rows : List Row}
    (last : hasMore = false ∨ rows = [] ∨ compiled.cursorFields = []) :
    translator.nextCursor compiled hasMore rows = .ok none := by
  unfold nextCursor
  split
  · rename_i found fields
    rcases last with last | last | last
    · exact nomatch last
    · simp [last] at found
    · simp [last] at fields
  · rfl

/-- The cursor of a page carries the pins of the compiled plan. -/
structure Pinned (compiled : CompiledQuery) (pins : CursorContext) (payload : CursorPayload) :
    Prop where
  plan : payload.planFingerprint = pins.planFingerprint
  schemas : payload.schemaFingerprints = pins.schemaFingerprints
  registry : payload.registryFingerprint = pins.registryFingerprint
  scope : payload.scopeFingerprint = pins.scopeFingerprint
  tuple : payload.sortTuple.length = compiled.cursorFields.length
  size : payload.pageSize = compiled.pageSize

theorem nextCursor_some {rows : List Row} {pins : CursorContext}
    {cursor : Option String} (more : rows ≠ []) (sorted : compiled.cursorFields ≠ [])
    (pinned : compiled.cursorContext = some pins)
    (issued : translator.nextCursor compiled true rows = .ok cursor) :
    ∃ signer payload, translator.cursorSigner = some signer ∧
      cursor = some (signer.issue payload) ∧ Pinned compiled pins payload := by
  rcases List.exists_cons_of_ne_nil sorted with ⟨first, rest, fields⟩
  have last : ∃ last, rows.getLast? = some last :=
    ⟨_, List.getLast?_eq_some_getLast more⟩
  rcases last with ⟨last, found⟩
  unfold nextCursor at issued
  rw [found, fields, pinned] at issued
  dsimp only at issued
  cases signed : translator.cursorSigner with
  | none => simp [signed] at issued
  | some signer =>
      rw [signed] at issued
      dsimp only at issued
      cases tuple : (first :: rest).mapM (column last) with
      | error error => simp [tuple, bind, Except.bind] at issued
      | ok sortTuple =>
          rw [tuple] at issued
          cases issued
          exact ⟨signer, _, rfl, rfl, rfl, rfl, rfl, rfl, fields ▸ mapM_length tuple, rfl⟩

/-! ## Truncated results -/

theorem map_take_eq_iff {α β : Type} (f : α → β) (rows : List α) (count : Nat) :
    (rows.take count).map f = rows.map f ↔ rows.length ≤ count := by
  constructor
  · intro same
    have lengths := congrArg List.length same
    simp only [List.length_map, List.length_take] at lengths
    omega
  · intro fits
    rw [List.take_of_length_le fits]

theorem normalizeResult_eq {raw : List Row} (full : compiled.empty = false) :
    translator.normalizeResult compiled raw =
      (translator.nextCursor compiled (compiled.pageSize < raw.length)
        (raw.take compiled.pageSize)).map fun cursor =>
          ⟨if compiled.single then
              .single ((raw.take compiled.pageSize).map compiled.visible).head?
            else .records ((raw.take compiled.pageSize).map compiled.visible),
            cursor, pageProvenance⟩ := by
  rw [normalizeResult, full]
  rfl

theorem uncursored_complete_iff {plan : Plan} {bound : Option Nat} {raw produced : List Row}
    (uncursored : Uncursored operation bound compiled)
    (answered : raw = limitRows bound produced) :
    (∀ result, translator.normalizeResult compiled raw = .ok result →
      Complete translator plan context compiled produced result) ↔
      produced.length ≤ (bound.map (min operation.page.size)).getD operation.page.size := by
  have normal : translator.normalizeResult compiled raw = .ok
      ⟨.records ((raw.take operation.page.size).map compiled.visible), none,
        pageProvenance⟩ := by
    rw [normalizeResult_eq uncursored.empty,
      nextCursor_none (.inr (.inr uncursored.cursorFields)), uncursored.single,
      uncursored.pageSize]
    rfl
  have kept : raw.take operation.page.size =
      produced.take ((bound.map (min operation.page.size)).getD operation.page.size) := by
    rw [answered]
    cases bound with
    | none => rfl
    | some bound => exact List.take_take
  rw [normal, kept, ← map_take_eq_iff compiled.visible]
  constructor
  · intro complete
    rcases complete _ rfl with whole | ⟨cursor, absent, _⟩
    · exact whole
    · exact nomatch absent
  · rintro whole result ⟨⟩
    exact .inl whole

/-- A cursor with the pins of the plan is accepted. -/
theorem keyset_ok {signer : CursorSigner} {cursor : String} {payload : CursorPayload}
    {order : List OrderKey} (signed : translator.cursorSigner = some signer)
    (given : operation.page.cursor = some cursor)
    (verified : signer.verify cursor = .ok payload)
    (plan : payload.planFingerprint = translator.cursorPlanFingerprint operation)
    (schemas : payload.schemaFingerprints = context.schemaFingerprints)
    (registry : payload.registryFingerprint = context.registryFingerprint)
    (scope : payload.scopeFingerprint = context.scopeFingerprint)
    (size : payload.pageSize = operation.page.size)
    (tuple : payload.sortTuple.length = order.length) :
    translator.keyset operation context order =
      .ok (keysetPredicate (order.zip payload.sortTuple)) := by
  unfold keyset
  rw [signed, given]
  dsimp only
  rw [verified]
  exact if_neg (by simp [plan, schemas, registry, scope, size, tuple])

section Cursors

variable {plan : Plan} {order : List OrderKey} {raw produced : List Row}
  (cursored : Cursored translator plan.operation context order compiled)
  (answered : raw = produced.take (plan.operation.page.size + 1))

include cursored answered

theorem page_rows : raw.take compiled.pageSize = produced.take plan.operation.page.size := by
  rw [cursored.pageSize, answered, List.take_take]
  congr 1
  omega

theorem page_more : decide (compiled.pageSize < raw.length) =
    decide (plan.operation.page.size < produced.length) := by
  rw [cursored.pageSize, answered, List.length_take, decide_eq_decide]
  omega

/-- A page that is not the last ends in a cursor for the next one. -/
theorem page_continues (signs : ∀ signer payload, translator.cursorSigner = some signer →
      signer.verify (signer.issue payload) = .ok payload)
    (accepted : translator.compile plan context = .ok compiled)
    (full : plan.emptyResult = false) (walks : plan.operation.kind ≠ .traverse)
    (sorts : order ≠ []) (sized : 0 < plan.operation.page.size)
    (more : plan.operation.page.size < produced.length) {result : NormalizedQueryResult}
    (normal : translator.normalizeResult compiled raw = .ok result) :
    ∃ cursor, result.cursor = some cursor ∧
      ∃ next, translator.compile (plan.continued cursor) context = .ok next := by
  have rows : produced.take plan.operation.page.size ≠ [] := by
    intro none
    have length := congrArg List.length none
    rw [List.length_take, List.length_nil] at length
    omega
  have fields : compiled.cursorFields ≠ [] := by
    rw [← List.length_pos_iff, cursored.cursorFields]
    exact List.length_pos_iff.mpr sorts
  rw [normalizeResult_eq cursored.empty, page_rows cursored answered,
    page_more cursored answered, decide_eq_true more] at normal
  cases issued : translator.nextCursor compiled true
      (produced.take plan.operation.page.size) with
  | error error => simp [issued, Except.map] at normal
  | ok cursor =>
      rw [issued] at normal
      cases normal
      rcases nextCursor_some rows fields cursored.cursorContext issued with
        ⟨signer, payload, signed, rfl, pinned⟩
      have keyed : translator.keyset (plan.continued (signer.issue payload)).operation context
          order = .ok (keysetPredicate (order.zip payload.sortTuple)) :=
        keyset_ok signed rfl (signs signer payload signed) pinned.plan pinned.schemas
          pinned.registry pinned.scope (pinned.size.trans cursored.pageSize)
          (pinned.tuple.trans cursored.cursorFields)
      rcases cursored.continues _ _ keyed with ⟨next, nextOk⟩
      exact ⟨_, rfl, next, compile_continued accepted full walks nextOk⟩

theorem page_complete_iff
    (last : ¬(0 < plan.operation.page.size ∧ plan.operation.page.size < produced.length)) :
    (∀ result, translator.normalizeResult compiled raw = .ok result →
      Complete translator plan context compiled produced result) ↔
      produced.length ≤ if plan.operation.kind = .get then min plan.operation.page.size 1
        else plan.operation.page.size := by
  have ended : translator.nextCursor compiled
      (decide (plan.operation.page.size < produced.length))
      (produced.take plan.operation.page.size) = .ok none := by
    apply nextCursor_none
    by_cases sized : 0 < plan.operation.page.size
    · exact .inl (decide_eq_false fun more => last ⟨sized, more⟩)
    · exact .inr (.inl (by simp [Nat.eq_zero_of_not_pos sized]))
  have first : ∀ rows : List Row, rows.head?.toList = rows.take 1 := by
    intro rows
    cases rows <;> rfl
  have held : ∀ data : ResultData, (⟨data, none, pageProvenance⟩ : NormalizedQueryResult).rows =
        produced.map compiled.visible ↔
      Complete translator plan context compiled produced ⟨data, none, pageProvenance⟩ :=
    fun data => ⟨.inl, fun complete => complete.resolve_right
      fun ⟨cursor, absent, _⟩ => nomatch absent⟩
  rw [normalizeResult_eq cursored.empty, page_rows cursored answered,
    page_more cursored answered, ended, cursored.single]
  have single : (∀ result, (Except.ok none).map (fun cursor : Option String =>
      (⟨if decide (plan.operation.kind = .get) = true then
          .single ((produced.take plan.operation.page.size).map compiled.visible).head?
        else .records ((produced.take plan.operation.page.size).map compiled.visible),
        cursor, pageProvenance⟩ : NormalizedQueryResult)) = .ok (ε := ResultError) result →
      Complete translator plan context compiled produced result) ↔ _ :=
    ⟨fun all => all _ rfl, fun complete result same => by cases same; exact complete⟩
  rw [single, ← held]
  by_cases get : plan.operation.kind = .get
  · rw [if_pos (decide_eq_true get), if_pos get]
    change (List.head? _).toList = _ ↔ _
    rw [first, ← List.map_take, List.take_take, map_take_eq_iff, Nat.min_comm]
  · rw [if_neg (by simpa using get), if_neg get]
    exact map_take_eq_iff compiled.visible produced _

end Cursors

theorem cursored_complete_iff {plan : Plan} {order : List OrderKey} {raw produced : List Row}
    (signs : ∀ signer payload, translator.cursorSigner = some signer →
      signer.verify (signer.issue payload) = .ok payload)
    (accepted : translator.compile plan context = .ok compiled)
    (full : plan.emptyResult = false) (kind : plan.operation.kind ≠ .aggregate)
    (walks : plan.operation.kind ≠ .traverse)
    (cursored : Cursored translator plan.operation context order compiled)
    (answered : raw = produced.take (plan.operation.page.size + 1)) (sorts : order ≠ []) :
    (∀ result, translator.normalizeResult compiled raw = .ok result →
      Complete translator plan context compiled produced result) ↔
      plan.operation.Fits produced.length := by
  by_cases more : 0 < plan.operation.page.size ∧ plan.operation.page.size < produced.length
  · have fits : plan.operation.Fits produced.length := by
      unfold QueryOperation.Fits
      split
      · exact absurd (by assumption) kind
      · exact absurd (by assumption) walks
      · exact .inr ⟨more.1, .inr more.2⟩
      · exact fun empty => absurd more.1 (by omega)
    exact iff_of_true (fun result normal => .inr (page_continues cursored answered signs
      accepted full walks sorts more.1 more.2 normal)) fits
  · rw [page_complete_iff cursored answered more]
    cases found : plan.operation.kind with
    | aggregate => exact absurd found kind
    | traverse => exact absurd found walks
    | get =>
        simp only [QueryOperation.Fits, found, if_true]
        omega
    | scan | search | mutation =>
        simp only [QueryOperation.Fits, found, reduceCtorEq, if_false]
        omega

/-- A statement that sorts by nothing is not answered. -/
theorem QueryServer.sorts {server : QueryServer} {order : List OrderKey} {raw : List Row}
    (cursored : Cursored translator operation context order compiled)
    (answered : server.answer compiled.statement = some raw) : order ≠ [] := by
  rintro rfl
  rcases cursored.statement with ⟨select, parameters, statement⟩
  have unsorted : select ++ (orderBy []).command ++ [Piece.text " LIMIT ", .slot .limit] =
      select ++ [Piece.text " ORDER BY ", .text " LIMIT ", .slot .limit] := by
    simp [orderBy, joined]
  rw [statement, unsorted, server.sorted] at answered
  cases answered

theorem normalizeResult_nil {result : NormalizedQueryResult}
    (normal : translator.normalizeResult compiled [] = .ok result) : result.rows = [] := by
  cases full : compiled.empty with
  | true =>
      rw [normalizeResult, full] at normal
      cases normal
      rfl
  | false =>
      rw [normalizeResult_eq full, nextCursor_none (.inr (.inl List.take_nil))] at normal
      cases normal
      rw [NormalizedQueryResult.rows]
      cases compiled.single <;> simp

/-- A response holds every row or continues exactly when its page fits, for the
kinds that have no cursor. -/
theorem silent_truncation_iff {plan : Plan} {raw : List Row} {server : QueryServer}
    (signs : ∀ signer payload, translator.cursorSigner = some signer →
      signer.verify (signer.issue payload) = .ok payload)
    (accepted : translator.compile plan context = .ok compiled)
    (answered : server.answer compiled.statement = some raw) :
    (∀ result, translator.normalizeResult compiled raw = .ok result →
      Complete translator plan context compiled (server.produced compiled.statement)
        result) ↔
      plan.emptyResult = true ∨
        plan.operation.Fits (server.produced compiled.statement).length := by
  have limited := server.limited _ _ answered
  rcases compile_cases accepted with ⟨empty, statement⟩ | ⟨full, walks, traversal, _, walked⟩ |
    ⟨full, walks, mutates, selected⟩
  · have nothing : server.produced compiled.statement = [] := statement ▸ server.falsity
    rw [nothing] at limited ⊢
    have none : raw = [] := by
      rw [limited]
      cases rowBound compiled.statement <;> simp [limitRows]
    exact iff_of_true (fun result normal => .inl (normalizeResult_nil (none ▸ normal)))
      (.inl empty)
  · have uncursored := compileTraversal_uncursored walked
    rw [uncursored_complete_iff uncursored (uncursored.bound ▸ limited)]
    simp only [full, QueryOperation.Fits, walks, Option.map_some, Option.getD_some,
      Bool.false_eq_true, false_or]
    omega
  · by_cases kind : plan.operation.kind = .aggregate
    · have uncursored := compileSelect_uncursored kind selected
      rw [uncursored_complete_iff uncursored (uncursored.bound ▸ limited)]
      simp [full, QueryOperation.Fits, kind]
    · rcases compileSelect_cursored kind selected with ⟨order, cursored⟩
      rw [cursored_complete_iff signs accepted full kind walks cursored
        (by rw [limited, cursored.bound]; rfl) (QueryServer.sorts cursored answered)]
      simp [full]

/-! ## Two groups on a page of one -/

/-- The work queue by priority, a group on each page. -/
def workGroups : Plan :=
  { workScan priority with operation := { (workScan priority).operation with
      kind := .aggregate, filter := none, grouping := [priority]
      page := ⟨1, none, false⟩ } }

def groupRows : List Row := [[("group_0", .int 1)], [("group_0", .int 2)]]

/-- A database with two priorities. -/
def groupServer : QueryServer where
  produced := fun statement =>
    match statement.command with
    | [.text "SELECT NULL WHERE FALSE"] => []
    | _ => groupRows
  answer := fun statement =>
    match statement.command.reverse with
    | .slot .limit :: .text " LIMIT " :: .text " ORDER BY " :: _ => none
    | _ => some (limitRows (rowBound statement)
        (match statement.command with
          | [.text "SELECT NULL WHERE FALSE"] => []
          | _ => groupRows))
  limited := by
    intro statement rows answered
    split at answered
    · exact nomatch answered
    · exact (Option.some.inj answered).symm
  falsity := rfl
  sorted := by simp

theorem workGroups_answered : ∃ compiled,
    workTranslator.compile workGroups workContext = .ok compiled ∧
      groupServer.produced compiled.statement = groupRows ∧
      groupServer.answer compiled.statement = some groupRows :=
  ⟨_, rfl, rfl, rfl⟩

theorem workGroups_truncated : ∃ compiled,
    workTranslator.compile workGroups workContext = .ok compiled ∧
      ((∀ result, workTranslator.normalizeResult compiled groupRows = .ok result →
        Complete workTranslator workGroups workContext compiled
          (groupServer.produced compiled.statement) result) ↔
        workGroups.emptyResult = true ∨ workGroups.operation.Fits
          (groupServer.produced compiled.statement).length) := by
  rcases workGroups_answered with ⟨compiled, accepted, _, answered⟩
  exact ⟨compiled, accepted, silent_truncation_iff (fun _ _ absent => nomatch absent)
    accepted answered⟩

/-- A second group is left out of the page, and nothing says so. -/
theorem second_group_is_dropped : ∃ compiled raw result,
    workTranslator.compile workGroups workContext = .ok compiled ∧
      groupServer.answer compiled.statement = some raw ∧
      workTranslator.normalizeResult compiled raw = .ok result ∧
      result.cursor = none ∧
      result.rows.length < (groupServer.produced compiled.statement).length ∧
      ¬ Complete workTranslator workGroups workContext compiled
        (groupServer.produced compiled.statement) result :=
  ⟨_, _, _, rfl, rfl, rfl, rfl, by decide, by
    rintro (whole | ⟨cursor, issued, _⟩)
    · exact absurd (congrArg List.length whole) (by decide)
    · exact nomatch issued⟩

end PostgreSQLQueryTranslator

end MeridianPostgreSQL.Query
