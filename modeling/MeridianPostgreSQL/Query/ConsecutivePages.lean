import MeridianPostgreSQL.Foundation.Keysets
import MeridianPostgreSQL.Query.CursorValues

/-! # Consecutive pages

A scan or a search is sent again with each cursor that it returns, until none
is returned. The pages then hold every row once, when the values of the order
survive in a cursor and a record of the base resource occurs in one row at
most. -/

namespace MeridianPostgreSQL.Query

open Settings
open Unknowns Keysets

/-! ## Rows of a selection -/

def OrderKey.placement (key : OrderKey) : Placement :=
  ⟨key.direction = .desc, key.nulls = .last⟩

/-- The alias and the column that a key sorts by. -/
def OrderKey.column (key : OrderKey) : Option (String × String) :=
  match key.statement with
  | ⟨[.name tableAlias, .text ".", .name column], []⟩ => some (tableAlias, column)
  | _ => none

/-- The joined rows that a statement selects from, and how PostgreSQL evaluates
conditions on them. A value of a cursor is read as the column beside it. -/
structure Selection (Source Value : Type) where
  rows : List Source
  truth : QueryStatement → Source → Condition
  column : String × String → Source → Option Value
  read : String × String → Json → Option Value
  project : Source → Row

namespace Selection

variable {Source Value : Type} [LinearOrder Value] (selection : Selection Source Value)

def key (key : OrderKey) (source : Source) : Option Value :=
  key.column.bind fun column => selection.column column source

/-- The keys of an order on the rows. -/
def keys (order : List OrderKey) : List (Placement × (Source → Option Value)) :=
  order.map fun key => (key.placement, selection.key key)

def Before (order : List OrderKey) (left right : Source) : Prop :=
  Keysets.Before (compared (selection.keys order) left right)

instance (order : List OrderKey) : DecidableRel (selection.Before order) :=
  fun _ _ => decidableBefore _

/-- A value of a cursor shows a key of a row. -/
def Shows (source : Source) (key : OrderKey) (value : Json) : Prop :=
  ∃ column, key.column = some column ∧ selection.read column value = selection.column column source ∧
    (value = .null ↔ selection.column column source = none)

/-- The values of a cursor, as a row of the result holds them. -/
def tuple (order : List OrderKey) (source : Source) : List Json :=
  (List.range order.length).map fun index =>
    ((selection.project source).lookup s!"__cursor_{index}").getD .null

/-- PostgreSQL on the fragments of a keyset over columns. -/
structure Evaluates (order : List OrderKey) (predicate : QueryStatement) : Prop where
  both : ∀ values source,
    selection.truth (conjunction [predicate, keysetPredicate (order.zip values)]) source =
      (selection.truth predicate source).both
        (selection.truth (keysetPredicate (order.zip values)) source)
  branches : ∀ values source,
    selection.truth (keysetPredicate (order.zip values)) source =
      anyOf ((List.range (order.zip values).length).map fun index =>
        selection.truth (keysetBranch (order.zip values) index) source)
  parts : ∀ values index source,
    selection.truth (keysetBranch (order.zip values) index) source =
      allOf ((((order.zip values).take index).zipIdx.map fun entry =>
          selection.truth (notDistinct entry.1.1 entry.2 entry.1.2) source) ++
        (((order.zip values)[index]?).map fun entry =>
          selection.truth (after entry.1 index entry.2) source).toList)
  notDistinct : ∀ key ∈ order, ∀ column, key.column = some column → ∀ index value source,
    selection.truth (notDistinct key index value) source =
      same (selection.column column source) (selection.read column value)
  falsity : ∀ key ∈ order, key.nulls = .last → ∀ index source,
    selection.truth (after key index .null) source = some false
  notNull : ∀ key ∈ order, ∀ column, key.column = some column → key.nulls = .first →
    ∀ index source, selection.truth (after key index .null) source =
      present (selection.column column source)
  nullOr : ∀ key ∈ order, ∀ column, key.column = some column → key.nulls = .last →
    ∀ index value source, value ≠ .null → selection.truth (after key index value) source =
      (missing (selection.column column source)).either
        ((present (selection.column column source)).both
          (key.placement.beyond (selection.read column value) (selection.column column source)))
  notNullAnd : ∀ key ∈ order, ∀ column, key.column = some column → key.nulls = .first →
    ∀ index value source, value ≠ .null → selection.truth (after key index value) source =
      (present (selection.column column source)).both
        (key.placement.beyond (selection.read column value) (selection.column column source))

/-! ## The keyset of a row -/

section Keyset

variable {selection} {order : List OrderKey} {predicate : QueryStatement} {last source : Source}

theorem truth_after (evaluates : selection.Evaluates order predicate) {key : OrderKey}
    (listed : key ∈ order) {value : Json} (shows : selection.Shows last key value) (index : Nat) :
    selection.truth (after key index value) source =
      key.placement.after (selection.key key last) (selection.key key source) := by
  obtain ⟨column, named, read, null⟩ := shows
  unfold Selection.key
  rw [named, Option.bind_some, Option.bind_some, ← read]
  rw [← read] at null
  unfold Placement.after
  by_cases absent : value = .null
  · rw [if_pos (by rw [null.mp absent]; rfl), absent]
    cases nulls : key.nulls with
    | first =>
        rw [evaluates.notNull key listed column named nulls,
          if_neg (by simp [OrderKey.placement, nulls])]
    | last =>
        rw [evaluates.falsity key listed nulls, if_pos (by simp [OrderKey.placement, nulls])]
  · rw [if_neg (by simpa using fun missing => absent (null.mpr missing))]
    cases nulls : key.nulls with
    | first =>
        rw [evaluates.notNullAnd key listed column named nulls index value source absent,
          if_neg (by simp [OrderKey.placement, nulls])]
    | last =>
        rw [evaluates.nullOr key listed column named nulls index value source absent,
          if_pos (by simp [OrderKey.placement, nulls])]

theorem truth_notDistinct (evaluates : selection.Evaluates order predicate) {key : OrderKey}
    (listed : key ∈ order) {value : Json} (shows : selection.Shows last key value) (index : Nat) :
    selection.truth (notDistinct key index value) source =
      same (selection.key key source) (selection.key key last) := by
  obtain ⟨column, named, read, _⟩ := shows
  rw [evaluates.notDistinct key listed column named, read]
  unfold Selection.key
  rw [named, Option.bind_some, Option.bind_some]

variable {values : List Json} (evaluates : selection.Evaluates order predicate)
  (shown : List.Forall₂ (selection.Shows last) order values)

include evaluates shown

omit [LinearOrder Value] evaluates in
theorem zip_shown : ∀ entry ∈ order.zip values, entry.1 ∈ order ∧
    selection.Shows last entry.1 entry.2 := fun _ member =>
  ⟨(List.of_mem_zip member).1, List.forall₂_iff_zip.mp shown |>.2 member⟩

omit [LinearOrder Value] evaluates in
theorem compared_zip : (order.zip values).map (fun entry => (⟨entry.1.placement,
      selection.key entry.1 last, selection.key entry.1 source⟩ : Compared Value)) =
    compared (selection.keys order) last source := by
  have first : (order.zip values).map Prod.fst = order := List.map_fst_zip shown.length_eq.le
  unfold compared keys
  conv => rhs; rw [← first]
  rw [List.map_map, List.map_map]
  rfl

theorem truth_branch (index : Nat) :
    selection.truth (keysetBranch (order.zip values) index) source =
      branch (compared (selection.keys order) last source) index := by
  rw [evaluates.parts, branch, ← compared_zip shown, ← List.map_take, List.getElem?_map,
    List.map_map]
  congr 2
  · have listed := List.zipIdx_map_fst 0 ((order.zip values).take index)
    conv => rhs; rw [← listed, List.map_map]
    apply List.map_congr_left
    intro entry member
    have inside := zip_shown shown entry.1
      (List.mem_of_mem_take (listed ▸ List.mem_map_of_mem member))
    exact truth_notDistinct evaluates inside.1 inside.2 entry.2
  · cases found : (order.zip values)[index]? with
    | none => rfl
    | some entry =>
        have inside := zip_shown shown entry (List.mem_of_getElem? found)
        exact congrArg (fun condition => [condition])
          (truth_after evaluates inside.1 inside.2 index)

/-- The predicate of a cursor is true of the rows strictly after its row, and
false of the others. -/
theorem truth_keyset : selection.truth (keysetPredicate (order.zip values)) source =
    some (decide (selection.Before order last source)) := by
  rw [evaluates.branches]
  have length : (order.zip values).length =
      (compared (selection.keys order) last source).length := by
    rw [← compared_zip shown, List.length_map]
  rw [length, List.map_congr_left fun index _ => truth_branch evaluates shown index]
  exact keyset_eq _

end Keyset

end Selection

/-! ## Parts of a selection -/

/-- What a statement is made of besides the page. -/
structure SelectionParts where
  order : List OrderKey
  select : QueryStatement
  source : QueryStatement
  predicate : QueryStatement

def SelectionParts.statement (parts : SelectionParts) (predicate : QueryStatement) (size : Nat) :
    QueryStatement :=
  ⟨[Piece.text "SELECT "] ++ parts.select.command ++ parts.source.command ++
      [Piece.text " WHERE "] ++
      predicate.command ++ (orderBy parts.order).command ++ [Piece.text " LIMIT ", .slot .limit],
    parts.select.parameters ++ parts.source.parameters ++ predicate.parameters ++
      (orderBy parts.order).parameters ++ [⟨.limit, .int (size + 1)⟩]⟩

/-- The predicate of the rows after those that the values show. -/
def SelectionParts.continued (parts : SelectionParts) (values : List Json) : QueryStatement :=
  conjunction [parts.predicate, keysetPredicate (parts.order.zip values)]

def cursorNames (order : List OrderKey) : List String :=
  (List.range order.length).map fun index => s!"__cursor_{index}"

/-- The operation on another page. -/
def QueryOperation.at (operation : QueryOperation) (cursor : Option String) : QueryOperation :=
  { operation with page := { operation.page with cursor := cursor } }

namespace PostgreSQLQueryTranslator

variable {translator : PostgreSQLQueryTranslator} {operation : QueryOperation}
  {context : TranslationContext} {compiled : CompiledQuery} {parts : SelectionParts}

/-- The base resource of an operation, its layout and the layouts of its targets. -/
def base (translator : PostgreSQLQueryTranslator) (operation : QueryOperation) :
    Compiled (Targets × ResourceLayout × String) := do
  let targets ← translator.targets operation
  let base ← baseTarget operation
  let layout ← lookupKey targets.layouts base
  let tableAlias ← lookupKey targets.aliases base
  .ok (targets, layout, tableAlias)

def selectionParts (translator : PostgreSQLQueryTranslator) (operation : QueryOperation) :
    Compiled SelectionParts := do
  let (targets, layout, tableAlias) ← translator.base operation
  let joins ← operation.joins.zipIdx.mapM fun join =>
    translator.joinClause targets join.1 join.2
  let predicate ← translator.filterPredicate targets tableAlias operation.filter
  let order ← order operation layout targets
  let select ← recordProjection operation layout tableAlias targets order (cursorNames order)
  .ok ⟨order, select, ⟨[Piece.text " FROM "] ++ tableName translator.settings layout ++
      [Piece.text " AS ", .name tableAlias] ++ (joins.map BoundStatement.command).flatten,
    allParameters joins⟩, predicate⟩

/-- A page of a selection. -/
def pageQuery (translator : PostgreSQLQueryTranslator) (operation : QueryOperation)
    (context : TranslationContext) (parts : SelectionParts) (predicate : QueryStatement) :
    CompiledQuery :=
  ⟨parts.statement predicate operation.page.size, context.planFingerprint, operation.resultShape,
    operation.budget.maxNormalizedBytes, operation.page.size, false, operation.kind = .get,
    cursorNames parts.order, some (translator.cursorContext operation context)⟩

theorem bind_ok_eq {α β : Type} {first : Compiled α} {value : α} (found : first = .ok value)
    (next : α → Compiled β) : (first >>= next) = next value := by
  rw [found]
  rfl

/-- The page decides only the keyset of a statement. -/
theorem compileSelect_parts (kind : operation.kind ≠ .aggregate)
    (partsOk : translator.selectionParts operation = .ok parts) (cursor : Option String) :
    translator.compileSelect (operation.at cursor) context =
      (translator.cursorPredicate (operation.at cursor) context parts.order parts.predicate).map
        (translator.pageQuery operation context parts) := by
  obtain ⟨⟨targets, layout, tableAlias⟩, baseOk, partsOk⟩ := bind_eq_ok partsOk
  obtain ⟨targets, targetsOk, baseOk⟩ := bind_eq_ok baseOk
  obtain ⟨base, baseTargetOk, baseOk⟩ := bind_eq_ok baseOk
  obtain ⟨layout, layoutOk, baseOk⟩ := bind_eq_ok baseOk
  obtain ⟨tableAlias, aliasOk, baseOk⟩ := bind_eq_ok baseOk
  cases baseOk
  obtain ⟨joins, joinsOk, partsOk⟩ := bind_eq_ok partsOk
  obtain ⟨predicate, predicateOk, partsOk⟩ := bind_eq_ok partsOk
  obtain ⟨order, orderOk, partsOk⟩ := bind_eq_ok partsOk
  obtain ⟨select, selectOk, partsOk⟩ := bind_eq_ok partsOk
  cases partsOk
  have kinds : (operation.at cursor).kind ≠ .aggregate := kind
  have paged : translator.targets (operation.at cursor) = .ok targets ∧
      baseTarget (operation.at cursor) = .ok base ∧
      ((operation.at cursor).joins.zipIdx.mapM fun join =>
        translator.joinClause targets join.1 join.2) = .ok joins ∧
      translator.filterPredicate targets tableAlias (operation.at cursor).filter =
        .ok predicate ∧
      PostgreSQLQueryTranslator.order (operation.at cursor) layout targets = .ok order ∧
      recordProjection (operation.at cursor) layout tableAlias targets order
        ((List.range order.length).map fun index => s!"__cursor_{index}") = .ok select :=
    ⟨targetsOk, baseTargetOk, joinsOk, predicateOk, orderOk, selectOk⟩
  obtain ⟨targetsPaged, basePaged, joinsPaged, predicatePaged, orderPaged, selectPaged⟩ := paged
  unfold compileSelect
  rw [bind_ok_eq targetsPaged, bind_ok_eq basePaged, bind_ok_eq layoutOk, bind_ok_eq aliasOk,
    bind_ok_eq joinsPaged, bind_ok_eq predicatePaged, if_neg kinds]
  unfold recordStatement
  rw [bind_ok_eq orderPaged]
  dsimp only
  rw [bind_ok_eq selectPaged]
  cases translator.cursorPredicate (operation.at cursor) context order predicate <;> rfl

/-! ## Identity keys -/

theorem setKey_fresh {α : Type} {entries : List (String × α)} {key : String} {value : α}
    (fresh : key ∉ entries.map Prod.fst) : setKey entries key value = entries ++ [(key, value)] :=
  if_neg fresh

/-- A target that is listed once keeps the alias and the layout it is given. -/
theorem targets_prefix {entries : List (String × Nat)} {start targets : Targets}
    (distinct : (start.aliases.map Prod.fst ++ entries.map Prod.fst).Nodup)
    (same : start.layouts.map Prod.fst = start.aliases.map Prod.fst)
    (folded : entries.foldlM (fun (collected : Targets) target => do
      let layout ← translator.layout target.1
      Except.ok (Targets.mk (setKey collected.aliases target.1 s!"t{target.2}")
        (setKey collected.layouts target.1 layout))) start = .ok targets) :
    start.aliases <+: targets.aliases ∧ start.layouts <+: targets.layouts := by
  induction entries generalizing start with
  | nil =>
      cases folded
      exact ⟨List.prefix_refl _, List.prefix_refl _⟩
  | cons entry rest induction =>
      rw [List.foldlM_cons] at folded
      obtain ⟨next, nextOk, folded⟩ := bind_eq_ok folded
      obtain ⟨layout, layoutOk, nextOk⟩ := bind_eq_ok nextOk
      cases nextOk
      have fresh : entry.1 ∉ start.aliases.map Prod.fst := by
        intro listed
        rw [List.map_cons, List.nodup_append] at distinct
        exact distinct.2.2 _ listed _ List.mem_cons_self rfl
      rw [setKey_fresh fresh, setKey_fresh (same ▸ fresh)] at folded
      obtain ⟨aliases, layouts⟩ := induction (by
        simpa [List.append_assoc] using distinct) (by simp [same]) folded
      exact ⟨(List.prefix_append _ _).trans aliases, (List.prefix_append _ _).trans layouts⟩

theorem base_first {base : Targets × ResourceLayout × String}
    (distinct : operation.targets.Nodup) (baseOk : translator.base operation = .ok base) :
    ∃ ref, operation.targets.head? = some ref ∧ translator.layout ref = .ok base.2.1 ∧
      base.2.2 = "t0" ∧ base.1.aliases.head? = some (ref, "t0") ∧
      base.1.aliases.lookup ref = some "t0" ∧ base.1.layouts.lookup ref = some base.2.1 := by
  obtain ⟨targets, targetsOk, baseOk⟩ := bind_eq_ok baseOk
  obtain ⟨ref, refOk, baseOk⟩ := bind_eq_ok baseOk
  obtain ⟨layout, layoutOk, baseOk⟩ := bind_eq_ok baseOk
  obtain ⟨tableAlias, aliasOk, baseOk⟩ := bind_eq_ok baseOk
  cases baseOk
  unfold baseTarget at refOk
  cases listed : operation.targets with
  | nil => simp [listed] at refOk
  | cons first rest =>
      rw [listed] at refOk distinct
      cases refOk
      unfold PostgreSQLQueryTranslator.targets at targetsOk
      rw [listed, List.zipIdx_cons, List.foldlM_cons] at targetsOk
      obtain ⟨start, startOk, targetsOk⟩ := bind_eq_ok targetsOk
      obtain ⟨pinned, pinnedOk, startOk⟩ := bind_eq_ok startOk
      cases startOk
      obtain ⟨⟨others, aliases⟩, moreLayouts, layouts⟩ := targets_prefix (by
        simpa [setKey, List.zipIdx_map_fst] using distinct) (by simp [setKey]) targetsOk
      have named : (s!"t{0}" : String) = "t0" := rfl
      simp only [setKey, List.map_nil, List.not_mem_nil, if_false, List.nil_append, named]
        at aliases layouts
      rw [lookupKey, ← aliases] at aliasOk
      rw [lookupKey, ← layouts] at layoutOk
      simp only [List.cons_append, List.lookup_cons, beq_self_eq_true] at aliasOk layoutOk
      cases aliasOk
      cases layoutOk
      refine ⟨ref, rfl, pinnedOk, rfl, ?_, ?_, ?_⟩
      · rw [← aliases]
        rfl
      · rw [← aliases]
        simp
      · rw [← layouts]
        simp

/-- The identity of the base record is among the keys. -/
theorem order_identity {base : Targets × ResourceLayout × String} {order : List OrderKey}
    (distinct : operation.targets.Nodup) (baseOk : translator.base operation = .ok base)
    (fields : ∀ item ∈ operation.order, ∃ resource name, item.expression = .field resource name)
    (orderOk : PostgreSQLQueryTranslator.order operation base.2.1 base.1 = .ok order)
    {name : String} (listed : name ∈ base.2.1.identity) :
    ∃ field, base.2.1.field name = some field ∧
      ∃ key ∈ order, key.column = some ("t0", field.column.text) := by
  obtain ⟨ref, _, pinned, _, first, aliasOk, layoutOk⟩ := base_first distinct baseOk
  obtain ⟨keys, keysOk, orderOk⟩ := bind_eq_ok orderOk
  obtain ⟨appended, appendedOk, orderOk⟩ := bind_eq_ok orderOk
  cases orderOk
  have itself : base.2.1.ref.canonical = ref := by
    unfold layout PostgreSQLSettings.layout at pinned
    split at pinned
    · cases pinned
      have found := List.find?_some ‹_›
      exact of_decide_eq_true found
    · cases pinned
  by_cases sorted : name ∈ operation.order.filterMap (represented base.2.1)
  · obtain ⟨item, inside, represents⟩ := List.mem_filterMap.mp sorted
    obtain ⟨resource, other, expression⟩ := fields item inside
    unfold represented at represents
    rw [expression] at represents
    dsimp only at represents
    split at represents
    · cases represents
      rename_i own
      obtain ⟨index, position⟩ := List.mem_iff_getElem?.mp inside
      obtain ⟨key, member, made⟩ := mapM_result keysOk
        (List.mk_mem_zipIdx_iff_getElem?.mpr position)
      dsimp only at made
      rw [expression, Query.compile] at made
      obtain ⟨statement, statementOk, made⟩ := bind_eq_ok made
      obtain ⟨found, foundOk, statementOk⟩ := bind_eq_ok statementOk
      cases statementOk
      cases made
      have resolved : base.1.resource resource = .ok ref := by
        rcases own with rfl | rfl
        · unfold Targets.resource
          cases aliases : base.1.aliases with
          | nil => simp [aliases] at first
          | cons head rest =>
              rw [aliases] at first
              cases first
              rfl
        · unfold Targets.resource Targets.canonicalResource
          rw [itself]
          have known : ref ∈ base.1.aliases.map Prod.fst :=
            List.mem_map.mpr ⟨_, List.mem_of_mem_head? first, rfl⟩
          exact if_pos known
      unfold Targets.field at foundOk
      rw [bind_ok_eq resolved, lookupKey, layoutOk] at foundOk
      dsimp only [bind, Except.bind] at foundOk
      split at foundOk
      · cases foundOk
      · rename_i field named
        rw [lookupKey, aliasOk] at foundOk
        cases foundOk
        exact ⟨field, named, _, List.mem_append_left _ member, rfl⟩
    · cases represents
  · obtain ⟨key, member, made⟩ := mapM_result appendedOk
      (List.mem_filter.mpr ⟨listed, by simpa using sorted⟩)
    split at made
    · cases made
      exact ⟨_, ‹_›, _, List.mem_append_right _ member, rfl⟩
    · cases made

/-- Every key is the column of a field of some target. -/
theorem order_fields {base : Targets × ResourceLayout × String} {order : List OrderKey}
    (distinct : operation.targets.Nodup) (baseOk : translator.base operation = .ok base)
    (fields : ∀ item ∈ operation.order, ∃ resource name, item.expression = .field resource name)
    (orderOk : PostgreSQLQueryTranslator.order operation base.2.1 base.1 = .ok order) :
    ∀ key ∈ order, ∃ resource name tableAlias field,
      base.1.field resource name = .ok (tableAlias, field) ∧
        key.column = some (tableAlias, field.column.text) := by
  obtain ⟨ref, _, _, _, first, aliasOk, layoutOk⟩ := base_first distinct baseOk
  obtain ⟨keys, keysOk, orderOk⟩ := bind_eq_ok orderOk
  obtain ⟨appended, appendedOk, orderOk⟩ := bind_eq_ok orderOk
  cases orderOk
  intro key listed
  rcases List.mem_append.mp listed with given | identity
  · refine forall_of_mapM (fun key : OrderKey => ∃ resource name tableAlias field,
      base.1.field resource name = .ok (tableAlias, field) ∧
        key.column = some (tableAlias, field.column.text)) keysOk ?_ key given
    intro item result member made
    obtain ⟨resource, name, expression⟩ := fields item.1 (List.fst_mem_of_mem_zipIdx member)
    rw [expression, Query.compile] at made
    obtain ⟨statement, statementOk, made⟩ := bind_eq_ok made
    obtain ⟨found, foundOk, statementOk⟩ := bind_eq_ok statementOk
    cases statementOk
    cases made
    exact ⟨resource, name, found.1, found.2, foundOk, rfl⟩
  · refine forall_of_mapM (fun key : OrderKey => ∃ resource name tableAlias field,
      base.1.field resource name = .ok (tableAlias, field) ∧
        key.column = some (tableAlias, field.column.text)) appendedOk ?_ key identity
    intro name result _ made
    split at made
    · rename_i field named
      cases made
      refine ⟨none, name, "t0", field, ?_, rfl⟩
      have resolved : base.1.resource none = .ok ref := by
        unfold Targets.resource
        cases aliases : base.1.aliases with
        | nil => simp [aliases] at first
        | cons head rest =>
            rw [aliases] at first
            cases first
            rfl
      unfold Targets.field
      rw [bind_ok_eq resolved, lookupKey, layoutOk]
      dsimp only [bind, Except.bind]
      rw [named, lookupKey, aliasOk]
    · cases made

/-! ## Pages -/

/-- The operation is sent, and sent again with each cursor that it returns. -/
def allPages (translator : PostgreSQLQueryTranslator)
    (answer : QueryStatement → Option (List Row)) (operation : QueryOperation)
    (context : TranslationContext) : Nat → Option String → Option (List (List Row))
  | 0, _ => none
  | fuel + 1, cursor =>
      match translator.compile (operation.at cursor).plan context with
      | .error _ => none
      | .ok compiled =>
          match answer compiled.statement with
          | none => none
          | some raw =>
              match translator.normalizeResult compiled raw with
              | .error _ => none
              | .ok result =>
                  match result.cursor with
                  | none => some [result.rows]
                  | some next =>
                      (allPages translator answer operation context fuel (some next)).map
                        (result.rows :: ·)

end PostgreSQLQueryTranslator

section Pages

variable {Source Value : Type} [LinearOrder Value]

/-- The rows that a predicate selects. -/
def Selection.chosen (selection : Selection Source Value) (predicate : QueryStatement) :
    List Source := selection.rows.filter fun source => selection.truth predicate source = some true

/-- A database that does not change answers each page of a selection with the
first of its rows, sorted. -/
def Selection.Answers (selection : Selection Source Value)
    (answer : QueryStatement → Option (List Row)) (parts : SelectionParts) (size : Nat) : Prop :=
  ∀ predicate, (predicate = parts.predicate ∨ ∃ last ∈ selection.rows,
      predicate = parts.continued (selection.tuple parts.order last)) →
    ∃ sorted : List Source, sorted.Perm (selection.chosen predicate) ∧
      sorted.Pairwise (fun left right => ¬ selection.Before parts.order right left) ∧
      answer (parts.statement predicate size) =
        some ((sorted.take (size + 1)).map selection.project)

/-- What the results hold of a value that a column holds, or of no value. -/
def Session.Results (session : Session) (stored : Option StoredValue) (held : Json) : Prop :=
  match stored with
  | none => held = .null
  | some value => ∃ loaded, session.load value = some loaded ∧ held = jsonable session loaded

/-- The values that the columns of a selection hold, and the place that the
server gives a value in the order of its column. A parameter is read as it is
compared with the column, and the results hold what the driver loads. -/
structure Selection.Stored (selection : Selection Source Value) (session : Session)
    (execution : OperationContext) (targets : Targets) (parts : SelectionParts) where
  value : String × String → Source → Option StoredValue
  rank : StoredValue → Value
  rank_same : ∀ {left right : StoredValue}, left.Same right → rank left = rank right
  column : ∀ name source, selection.column name source = (value name source).map rank
  null : ∀ name, selection.read name .null = none
  types : ∀ {key resource name tableAlias field}, key ∈ parts.order →
    key.column = some (tableAlias, field.column.text) →
    targets.field resource name = .ok (tableAlias, field) → ∀ source stored,
      value (tableAlias, field.column.text) source = some stored →
        columnType field = stored.columnType
  reads : ∀ {key resource name tableAlias field}, key ∈ parts.order →
    key.column = some (tableAlias, field.column.text) →
    targets.field resource name = .ok (tableAlias, field) → ∀ held, held ≠ .null →
      selection.read (tableAlias, field.column.text) held =
        (session.compared execution field held).map rank
  results : ∀ source ∈ selection.chosen parts.predicate, ∀ (index : Nat) (key : OrderKey) column,
    parts.order[index]? = some key → key.column = some column → ∃ held,
      (selection.project source).lookup s!"__cursor_{index}" = some held ∧
        session.Results (value column source) held

/-- The keys of the selected rows are values that survive in a cursor. -/
def Selection.Stored.Kept {selection : Selection Source Value} {session : Session}
    {execution : OperationContext} {targets : Targets} {parts : SelectionParts}
    (stored : selection.Stored session execution targets parts) : Prop :=
  ∀ source ∈ selection.chosen parts.predicate, ∀ key ∈ parts.order, ∀ column,
    key.column = some column → ∀ value, stored.value column source = some value →
      session.Keeps execution value

/-! ## Keys in a cursor -/

theorem jsonable_ne_null {session : Session} {execution : OperationContext} {value : StoredValue}
    {loaded : LoadedValue} (loads : session.load value = some loaded)
    (keeps : session.Keeps execution value) : jsonable session loaded ≠ .null := by
  cases value with
  | json value =>
      obtain ⟨column, text, rfl, _⟩ := keeps
      cases loads
      exact Json.noConfusion
  | timestamp moment =>
      obtain ⟨time, _, rfl⟩ := Option.map_eq_some_iff.mp loads
      exact Json.noConfusion
  | _ =>
      cases loads
      exact Json.noConfusion

section Shown

variable {selection : Selection Source Value} {session : Session} {execution : OperationContext}
  {targets : Targets} {parts : SelectionParts}
  (stored : selection.Stored session execution targets parts)
  (fields : ∀ key ∈ parts.order, ∃ resource name tableAlias field,
    targets.field resource name = .ok (tableAlias, field) ∧
      key.column = some (tableAlias, field.column.text))

include stored fields

omit [LinearOrder Value] in
/-- The results show the columns of the cursor. -/
theorem cursor_named {source : Source} (listed : source ∈ selection.chosen parts.predicate) :
    ∀ name ∈ cursorNames parts.order, ((selection.project source).lookup name).isSome = true := by
  intro name member
  obtain ⟨index, bound, rfl⟩ := List.mem_map.mp member
  have inside : index < parts.order.length := List.mem_range.mp bound
  obtain ⟨_, _, _, field, _, column⟩ := fields _ (List.getElem_mem inside)
  obtain ⟨held, found, _⟩ :=
    stored.results source listed index _ _ (List.getElem?_eq_getElem inside) column
  rw [found, Option.isSome_some]

omit [LinearOrder Value] in
/-- Where the keys survive in a cursor, its values show the keys of the row. -/
theorem cursor_shows (kept : stored.Kept) {source : Source}
    (listed : source ∈ selection.chosen parts.predicate) :
    List.Forall₂ (selection.Shows source) parts.order (selection.tuple parts.order source) := by
  apply List.forall₂_iff_get.mpr
  refine ⟨by simp [Selection.tuple], ?_⟩
  intro index inside within
  have member := List.getElem_mem inside
  obtain ⟨resource, name, tableAlias, field, found, column⟩ := fields _ member
  obtain ⟨held, shown, results⟩ :=
    stored.results source listed index _ _ (List.getElem?_eq_getElem inside) column
  have value : (selection.tuple parts.order source).get ⟨index, within⟩ = held := by
    simp only [Selection.tuple, List.get_eq_getElem, List.getElem_map, List.getElem_range]
    rw [shown, Option.getD_some]
  rw [value, List.get_eq_getElem]
  refine ⟨_, column, ?_⟩
  rw [stored.column]
  have keeps := kept source listed _ member _ column
  have types := stored.types member column found source
  revert results keeps types
  generalize stored.value (tableAlias, field.column.text) source = key
  intro results keeps types
  cases key with
  | none =>
      rw [show held = .null from results]
      exact ⟨stored.null _, by simp⟩
  | some key =>
      obtain ⟨loaded, loads, rfl⟩ := results
      have present := jsonable_ne_null loads (keeps key rfl)
      obtain ⟨read, compared, same⟩ :=
        (survives_iff (types key rfl) loads).mpr (keeps key rfl)
      rw [stored.reads member column found _ present, compared]
      exact ⟨congrArg some (stored.rank_same same), by simpa using present⟩

end Shown

namespace PostgreSQLQueryTranslator

variable {translator : PostgreSQLQueryTranslator} {operation : QueryOperation}
  {context : TranslationContext} {parts : SelectionParts} {selection : Selection Source Value}
  {answer : QueryStatement → Option (List Row)} {signer : CursorSigner} {sorted : List Source}

/-- A cursor, or none, stands after so many of the sorted rows. -/
def StandsAt (translator : PostgreSQLQueryTranslator) (operation : QueryOperation)
    (context : TranslationContext) (parts : SelectionParts) (selection : Selection Source Value)
    (signer : CursorSigner) (sorted : List Source) (offset : Nat) (cursor : Option String) : Prop :=
  offset = 0 ∧ cursor = none ∨ ∃ last payload, (sorted.take offset).getLast? = some last ∧
    cursor = some (signer.issue payload) ∧ PinnedTo translator operation context payload ∧
    payload.sortTuple = selection.tuple parts.order last

/-- The rows of the first page, sorted. -/
structure Sorted (selection : Selection Source Value) (parts : SelectionParts)
    (sorted : List Source) : Prop where
  chosen : sorted.Perm (selection.chosen parts.predicate)
  strict : sorted.Pairwise (selection.Before parts.order)

theorem Sorted.selected (rows : Sorted selection parts sorted) {source : Source}
    (listed : source ∈ sorted) : source ∈ selection.chosen parts.predicate :=
  rows.chosen.mem_iff.mp listed

/-- The rows that a cursor leaves are the rest. -/
theorem continued_rows (evaluates : selection.Evaluates parts.order parts.predicate)
    (rows : Sorted selection parts sorted) {offset : Nat} {last : Source}
    (found : (sorted.take offset).getLast? = some last)
    (shown : List.Forall₂ (selection.Shows last) parts.order
      (selection.tuple parts.order last)) :
    (selection.chosen (parts.continued (selection.tuple parts.order last))).Perm
      (sorted.drop offset) := by
  have selects : selection.chosen (parts.continued (selection.tuple parts.order last)) =
      (selection.chosen parts.predicate).filter fun source =>
        selection.Before parts.order last source := by
    unfold Selection.chosen
    rw [List.filter_filter]
    apply List.filter_congr
    intro source _
    unfold SelectionParts.continued
    rw [evaluates.both, Selection.truth_keyset evaluates shown, Bool.eq_iff_iff]
    simp [both_iff, and_comm]
  rw [selects, ← filter_after before_irrefl before_trans rows.strict found]
  exact (rows.chosen.filter _).symm

/-- What the database answers to the page at an offset. -/
theorem page_answered (evaluates : selection.Evaluates parts.order parts.predicate)
    (answers : selection.Answers answer parts operation.page.size)
    (shows : ∀ source ∈ selection.chosen parts.predicate,
      List.Forall₂ (selection.Shows source) parts.order (selection.tuple parts.order source))
    (signed : translator.cursorSigner = some signer)
    (verifies : ∀ payload, signer.verify (signer.issue payload) = .ok payload)
    (rows : Sorted selection parts sorted) {offset : Nat} {cursor : Option String}
    (stands : StandsAt translator operation context parts selection signer sorted offset cursor) :
    ∃ predicate, translator.cursorPredicate (operation.at cursor) context parts.order
        parts.predicate = .ok predicate ∧
      answer (parts.statement predicate operation.page.size) =
        some (((sorted.drop offset).take (operation.page.size + 1)).map selection.project) := by
  rcases stands with ⟨rfl, rfl⟩ | ⟨last, payload, found, rfl, pinned, tuple⟩
  · obtain ⟨arranged, same, ordered, answered⟩ := answers _ (.inl rfl)
    have equal : arranged = sorted := sorted_unique before_irrefl before_trans rows.strict
      (same.trans rows.chosen.symm) ordered
    exact ⟨parts.predicate, rfl, by rw [answered, equal, List.drop_zero]⟩
  · have selected := rows.selected (List.mem_of_mem_take (List.mem_of_getLast? found))
    have inside : last ∈ selection.rows := (List.mem_filter.mp selected).1
    have shown := shows last selected
    have keyed : translator.keyset (operation.at (some (signer.issue payload))) context
        parts.order = .ok (keysetPredicate (parts.order.zip payload.sortTuple)) :=
      keyset_pinned_ok signed rfl (verifies payload)
        ⟨pinned.plan, pinned.schemas, pinned.registry, pinned.scope, pinned.size⟩
        (tuple ▸ shown.length_eq.symm)
    rw [tuple] at keyed
    obtain ⟨arranged, same, ordered, answered⟩ := answers _ (.inr ⟨last, inside, rfl⟩)
    have strict : (sorted.drop offset).Pairwise (selection.Before parts.order) :=
      rows.strict.sublist (List.drop_sublist _ _)
    have equal : arranged = sorted.drop offset := sorted_unique before_irrefl before_trans strict
      (same.trans (continued_rows evaluates rows found shown)) ordered
    refine ⟨parts.continued (selection.tuple parts.order last), ?_, by rw [answered, equal]⟩
    unfold cursorPredicate
    rw [if_pos (by rfl), bind_ok_eq keyed]
    rfl

theorem mapM_columns {row : Row} {names : List String}
    (named : ∀ name ∈ names, (row.lookup name).isSome = true) :
    names.mapM (column row) = .ok (names.map fun name => (row.lookup name).getD .null) := by
  induction names with
  | nil => rfl
  | cons name rest induction =>
      obtain ⟨value, found⟩ := Option.isSome_iff_exists.mp (named name List.mem_cons_self)
      have held : column row name = .ok value := by rw [column, found]
      have later := induction fun other listed => named other (List.mem_cons_of_mem _ listed)
      rw [List.mapM_cons, held, later, List.map_cons, found]
      rfl

/-- The response to the page at an offset: its rows, and a cursor if there are more. -/
theorem page_normalized (named : ∀ source ∈ selection.chosen parts.predicate,
      ∀ name ∈ cursorNames parts.order, ((selection.project source).lookup name).isSome = true)
    (signed : translator.cursorSigner = some signer) (pages : operation.kind.Pages)
    (rows : Sorted selection parts sorted) (sized : 0 < operation.page.size)
    (keyed : 1 < sorted.length → parts.order ≠ []) (offset : Nat) (predicate : QueryStatement) :
    ∃ cursor, translator.normalizeResult (translator.pageQuery operation context parts predicate)
        (((sorted.drop offset).take (operation.page.size + 1)).map selection.project) =
      .ok ⟨.records (((sorted.drop offset).take operation.page.size).map fun source =>
          (selection.project source).filter fun column => column.1 ∉ cursorNames parts.order),
        cursor, pageProvenance⟩ ∧
      (sorted.length ≤ offset + operation.page.size ∧ cursor = none ∨
        offset + operation.page.size < sorted.length ∧ ∃ next, cursor = some next ∧
          StandsAt translator operation context parts selection signer sorted
            (offset + operation.page.size) cursor) := by
  have many : operation.kind ≠ .get := by
    rcases pages with kind | kind <;> rw [kind] <;> exact OperationKind.noConfusion
  have taken : ((((sorted.drop offset).take (operation.page.size + 1)).map
      selection.project).take operation.page.size) =
      ((sorted.drop offset).take operation.page.size).map selection.project := by
    rw [← List.map_take, List.take_take, Nat.min_eq_left (by omega)]
  have more : decide (operation.page.size <
      (((sorted.drop offset).take (operation.page.size + 1)).map selection.project).length) =
      decide (offset + operation.page.size < sorted.length) := by
    rw [List.length_map, List.length_take, List.length_drop, decide_eq_decide]
    omega
  rw [normalizeResult_eq rfl]
  simp only [pageQuery, taken, more, many, decide_false, Bool.false_eq_true, if_false,
    List.map_map]
  by_cases last : sorted.length ≤ offset + operation.page.size
  · rw [nextCursor_none (.inl (decide_eq_false (by omega)))]
    exact ⟨none, rfl, .inl ⟨last, rfl⟩⟩
  · have nonempty : (sorted.drop offset).take operation.page.size ≠ [] := by
      apply List.ne_nil_of_length_pos
      rw [List.length_take, List.length_drop]
      omega
    obtain ⟨final, found⟩ : ∃ final,
        ((sorted.drop offset).take operation.page.size).getLast? = some final :=
      ⟨_, List.getLast?_eq_some_getLast nonempty⟩
    have selected := rows.selected
      (List.mem_of_mem_drop (List.mem_of_mem_take (List.mem_of_getLast? found)))
    have fields : cursorNames parts.order ≠ [] := by
      have order := keyed (by omega)
      intro none
      apply order
      simpa [cursorNames] using none
    obtain ⟨first, rest, names⟩ := List.exists_cons_of_ne_nil fields
    have columns := mapM_columns (named final selected)
    have tuple : ((cursorNames parts.order).map fun name =>
        ((selection.project final).lookup name).getD .null) =
        selection.tuple parts.order final := by
      unfold cursorNames Selection.tuple
      rw [List.map_map]
      rfl
    rw [tuple, names] at columns
    have lastRow : (((sorted.drop offset).take operation.page.size).map
        selection.project).getLast? = some (selection.project final) := by
      rw [List.getLast?_map, found]
      rfl
    refine ⟨_, ?_, .inr ⟨by omega, _, rfl, .inr ⟨final, ⟨translator.cursorPlanFingerprint operation,
      context.schemaFingerprints, context.registryFingerprint, context.scopeFingerprint,
      selection.tuple parts.order final, operation.page.size⟩, ?_, rfl,
      ⟨rfl, .refl _, rfl, rfl, rfl⟩, rfl⟩⟩⟩
    · unfold nextCursor
      rw [decide_eq_true (by omega), lastRow, names]
      dsimp only
      rw [signed]
      dsimp only
      rw [columns]
      rfl
    · rw [List.take_add, List.getLast?_append, found]
      rfl

/-- A page is compiled wherever its cursor stands. -/
theorem page_compiled (admitted : operation.Admitted) (pages : operation.kind.Pages)
    (partsOk : translator.selectionParts operation = .ok parts) {cursor : Option String}
    {predicate : QueryStatement}
    (keyset : translator.cursorPredicate (operation.at cursor) context parts.order
      parts.predicate = .ok predicate) :
    translator.compile (operation.at cursor).plan context =
      .ok (translator.pageQuery operation context parts predicate) := by
  have kinds : operation.kind ≠ .aggregate := by
    rcases pages with kind | kind <;> rw [kind] <;> exact OperationKind.noConfusion
  have asked : (operation.at cursor).kind.Pages := pages
  rw [compile_plan_iff asked, compileSelect_parts kinds partsOk, keyset]
  exact ⟨⟨admitted.consistency, admitted.pointInTime, admitted.total⟩, rfl⟩

/-- What a caller is given of a row. -/
def shownRow (selection : Selection Source Value) (parts : SelectionParts) (source : Source) :
    Row := (selection.project source).filter fun column => column.1 ∉ cursorNames parts.order

/-- The rest of the rows, from an offset at which a cursor stands. -/
theorem allPages_rest (evaluates : selection.Evaluates parts.order parts.predicate)
    (answers : selection.Answers answer parts operation.page.size)
    (shows : ∀ source ∈ selection.chosen parts.predicate,
      List.Forall₂ (selection.Shows source) parts.order (selection.tuple parts.order source))
    (named : ∀ source ∈ selection.chosen parts.predicate,
      ∀ name ∈ cursorNames parts.order, ((selection.project source).lookup name).isSome = true)
    (signed : translator.cursorSigner = some signer)
    (verifies : ∀ payload, signer.verify (signer.issue payload) = .ok payload)
    (admitted : operation.Admitted) (pages : operation.kind.Pages)
    (sized : 0 < operation.page.size)
    (partsOk : translator.selectionParts operation = .ok parts)
    (rows : Sorted selection parts sorted) (keyed : 1 < sorted.length → parts.order ≠ [])
    {fuel offset : Nat} {cursor : Option String}
    (stands : StandsAt translator operation context parts selection signer sorted offset cursor)
    (enough : sorted.length < offset + fuel) (inside : offset ≤ sorted.length) :
    ∃ results, translator.allPages answer operation context fuel cursor = some results ∧
      results ≠ [] ∧ results.flatten = (sorted.drop offset).map (shownRow selection parts) ∧
      ∀ page ∈ results.dropLast, page.length = operation.page.size := by
  induction fuel generalizing offset cursor with
  | zero => omega
  | succ fuel induction =>
      obtain ⟨predicate, keyset, answered⟩ :=
        page_answered evaluates answers shows signed verifies rows stands
      obtain ⟨next, normal, ends⟩ := @page_normalized _ _ _ _ _ context _ _ _ _ named signed
        pages rows sized keyed offset predicate
      have compiled := page_compiled admitted pages partsOk keyset
      have answers : answer (translator.pageQuery operation context parts predicate).statement =
        some (((sorted.drop offset).take (operation.page.size + 1)).map selection.project) :=
          answered
      rcases ends with ⟨last, rfl⟩ | ⟨more, issued, rfl, stands⟩
      · refine ⟨[((sorted.drop offset).take operation.page.size).map (shownRow selection parts)],
          ?_, List.cons_ne_nil _ _, ?_, List.forall_mem_nil _⟩
        · rw [allPages, compiled]
          dsimp only
          rw [answers]
          dsimp only
          rw [normal]
          rfl
        · rw [List.flatten_singleton, List.take_of_length_le]
          rw [List.length_drop]
          omega
      · obtain ⟨results, rest, some, flat, full⟩ := induction stands (by omega) (by omega)
        refine ⟨((sorted.drop offset).take operation.page.size).map (shownRow selection parts) ::
          results, ?_, List.cons_ne_nil _ _, ?_, ?_⟩
        · rw [allPages, compiled]
          dsimp only
          rw [answers]
          dsimp only
          rw [normal]
          dsimp only
          rw [rest]
          rfl
        · rw [List.flatten_cons, flat, ← List.map_append, ← List.drop_drop,
            List.take_append_drop]
        · rw [List.dropLast_cons_of_ne_nil some]
          intro page listed
          rcases List.mem_cons.mp listed with rfl | later
          · rw [List.length_map, List.length_take, List.length_drop]
            omega
          · exact full page later

/-- Sent again with each cursor that it returns, an operation gives the rows
that its filter selects, each once and in order, in full pages before the last,
when their keys survive in a cursor and they hold a record of the base resource
in one row at most. -/
theorem consecutive_pages {base : Targets × ResourceLayout × String} {session : Session}
    {execution : OperationContext}
    (evaluates : selection.Evaluates parts.order parts.predicate)
    (answers : selection.Answers answer parts operation.page.size)
    (signed : translator.cursorSigner = some signer)
    (verifies : ∀ payload, signer.verify (signer.issue payload) = .ok payload)
    (admitted : operation.Admitted) (pages : operation.kind.Pages)
    (sized : 0 < operation.page.size) (distinct : operation.targets.Nodup)
    (fields : ∀ item ∈ operation.order, ∃ resource name, item.expression = .field resource name)
    (baseOk : translator.base operation = .ok base)
    (partsOk : translator.selectionParts operation = .ok parts)
    (stored : selection.Stored session execution base.1 parts) (kept : stored.Kept)
    (single : (selection.chosen parts.predicate).Pairwise fun left right =>
      ∃ name ∈ base.2.1.identity, ∃ field, base.2.1.field name = some field ∧
        selection.column ("t0", field.column.text) left ≠
          selection.column ("t0", field.column.text) right) :
    ∃ sorted : List Source, sorted.Perm (selection.chosen parts.predicate) ∧
      sorted.Pairwise (selection.Before parts.order) ∧ ∀ fuel, sorted.length < fuel →
        ∃ results, translator.allPages answer operation context fuel none = some results ∧
          results.flatten = sorted.map (shownRow selection parts) ∧
          ∀ page ∈ results.dropLast, page.length = operation.page.size := by
  have orderOk : PostgreSQLQueryTranslator.order operation base.2.1 base.1 = .ok parts.order := by
    obtain ⟨found, foundOk, parted⟩ := bind_eq_ok partsOk
    rw [baseOk] at foundOk
    cases foundOk
    obtain ⟨joins, _, parted⟩ := bind_eq_ok parted
    obtain ⟨predicate, _, parted⟩ := bind_eq_ok parted
    obtain ⟨order, orderOk, parted⟩ := bind_eq_ok parted
    obtain ⟨select, _, parted⟩ := bind_eq_ok parted
    cases parted
    exact orderOk
  have differ : ∀ left right : Source, (∃ name ∈ base.2.1.identity, ∃ field,
      base.2.1.field name = some field ∧ selection.column ("t0", field.column.text) left ≠
        selection.column ("t0", field.column.text) right) →
      ∃ key ∈ selection.keys parts.order, key.2 left ≠ key.2 right := by
    rintro left right ⟨name, listed, field, named, different⟩
    obtain ⟨found, foundNamed, key, member, column⟩ :=
      order_identity distinct baseOk fields orderOk listed
    rw [named] at foundNamed
    cases foundNamed
    refine ⟨_, List.mem_map_of_mem member, ?_⟩
    dsimp only [Selection.key]
    rw [column]
    exact different
  obtain ⟨sorted, same, ordered, _⟩ := answers _ (.inl rfl)
  have apart : sorted.Pairwise fun left right =>
      ∃ key ∈ selection.keys parts.order, key.2 left ≠ key.2 right := by
    refine (same.pairwise_iff fun different => ?_).mpr (single.imp fun related => differ _ _ related)
    obtain ⟨key, member, different⟩ := different
    exact ⟨key, member, different.symm⟩
  have strict : sorted.Pairwise (selection.Before parts.order) := by
    apply (apart.and ordered).imp
    rintro left right ⟨different, free⟩
    rcases before_or_before different with forward | backward
    · exact forward
    · exact absurd backward free
  have keyed : 1 < sorted.length → parts.order ≠ [] := by
    intro many none
    rcases sorted with _ | ⟨first, _ | ⟨second, rest⟩⟩
    · cases many
    · exact absurd many (lt_irrefl _)
    · obtain ⟨key, member, _⟩ := List.rel_of_pairwise_cons apart List.mem_cons_self
      rw [Selection.keys, none] at member
      cases member
  refine ⟨sorted, same, strict, fun fuel enough => ?_⟩
  have first : StandsAt translator operation context parts selection signer sorted 0 none :=
    .inl ⟨rfl, rfl⟩
  have keys := order_fields distinct baseOk fields orderOk
  obtain ⟨results, found, _, flat, full⟩ := allPages_rest evaluates answers
    (fun source => cursor_shows stored keys kept) (fun source => cursor_named stored keys) signed
    verifies admitted pages sized partsOk ⟨same, strict⟩ keyed first
    (enough.trans_eq (Nat.zero_add fuel).symm) (Nat.zero_le _)
  exact ⟨results, found, flat, full⟩

end PostgreSQLQueryTranslator

end Pages

/-! ## Three items on pages of one -/

namespace PostgreSQLQueryTranslator

def itemName (item : Nat) : String :=
  if item = 0 then "first" else if item = 1 then "second" else "third"

/-- The items in the order of their names. -/
def itemRank : StoredValue → Nat
  | .text name =>
      if name = "first" then 0 else if name = "second" then 1 else if name = "third" then 2 else 3
  | _ => 3

/-- A queue whose items are identified by names. -/
def namedLayout : ResourceLayout :=
  { workLayout with fields := identityField .string :: workLayout.fields.tail }

noncomputable def namedTranslator : PostgreSQLQueryTranslator :=
  { signingTranslator with settings := { workSettings with resources := [namedLayout] } }

def hasText (command : Sql Origin) (sql : String) : Bool :=
  command.any fun piece =>
    match piece with
    | .text text => text = sql
    | _ => false

/-- The value of a cursor among the parameters. -/
def cursorValue (statement : QueryStatement) : Option Json :=
  (statement.parameters.find? fun parameter =>
    match parameter.origin with
    | .cursor _ => true
    | _ => false).map Parameter.value

def itemExecution : OperationContext := ⟨some "tenant", [("workspace", "main")]⟩

/-- The place of the value that a name is compared with. -/
def readItem : Json → Option Nat
  | .null => none
  | held => (roundingSession.compared itemExecution (identityField .string) held).map itemRank

/-- The work queue, whose items are sorted by their identity. -/
def itemSelection : Selection Nat Nat where
  rows := [1, 0, 2]
  truth := fun statement item =>
    if hasText statement.command "FALSE" then some false
    else
      match cursorValue statement with
      | none => some true
      | some value =>
          if hasText statement.command " IS NOT DISTINCT FROM " then
            same (some (itemRank (.text (itemName item)))) (readItem value)
          else less (readItem value) (some (itemRank (.text (itemName item))))
  column := fun column item =>
    if column.2 = "id" then some (itemRank (.text (itemName item))) else none
  read := fun _ value => readItem value
  project := fun item =>
    [("id", .string (itemName item)), ("__cursor_0", .string (itemName item))]

def itemAnswer (statement : QueryStatement) : Option (List Row) :=
  some ((([0, 1, 2].filter fun item =>
    match cursorValue statement with
    | none => true
    | some value => (readItem value).any fun last => last < item).take 2).map
      itemSelection.project)

def itemKey : OrderKey := ⟨⟨ident ["t0", "id"], []⟩, .asc, .last⟩

theorem itemParts : ∃ parts base, namedTranslator.selectionParts workPage = .ok parts ∧
    namedTranslator.base workPage = .ok base ∧ parts.order = [itemKey] ∧
    base.2.1.identity = ["id"] ∧ base.2.1 = namedLayout ∧
    parts.predicate = workTranslator.scopePredicate "t0" ∧
    parts.select.parameters = [] ∧ parts.source.parameters = [] :=
  ⟨_, _, rfl, rfl, rfl, rfl, rfl, rfl, rfl, rfl⟩

theorem after_item {value : Json} (present : value ≠ .null) (index : Nat) :
    after itemKey index value =
      ⟨[Piece.text "("] ++ ident ["t0", "id"] ++
          [Piece.text " IS NULL OR ("] ++ ident ["t0", "id"] ++
          [Piece.text " IS NOT NULL AND "] ++ ident ["t0", "id"] ++
          [Piece.text " > ", .slot (.cursor index), .text ")", .text ")"],
        [⟨.cursor index, value⟩]⟩ := if_neg present

/-- The keyset of an item that is after another. -/
theorem truth_items {value : Json} (present : value ≠ .null) (item index : Nat) :
    itemSelection.truth (after itemKey index value) item =
        less (readItem value) (some (itemRank (.text (itemName item)))) ∧
      itemSelection.truth (conjunction [after itemKey index value]) item =
        less (readItem value) (some (itemRank (.text (itemName item)))) ∧
      itemSelection.truth (disjunction [conjunction [after itemKey index value]]) item =
        less (readItem value) (some (itemRank (.text (itemName item)))) ∧
      itemSelection.truth (conjunction [workTranslator.scopePredicate "t0",
        disjunction [conjunction [after itemKey index value]]]) item =
        less (readItem value) (some (itemRank (.text (itemName item)))) := by
  rw [after_item present]
  exact ⟨rfl, rfl, rfl, rfl⟩

theorem item_evaluates : itemSelection.Evaluates [itemKey]
    (workTranslator.scopePredicate "t0") where
  both := by
    intro values source
    cases values with
    | nil => rfl
    | cons value rest =>
        by_cases null : value = .null
        · subst null
          rfl
        · obtain ⟨_, _, inside, whole⟩ := truth_items null source 0
          refine Eq.trans whole ?_
          refine Eq.trans ?_ (congrArg (Condition.both (some true)) inside).symm
          exact (true_both _).symm
  branches := by
    intro values source
    cases values with
    | nil => rfl
    | cons value rest =>
        by_cases null : value = .null
        · subst null
          rfl
        · obtain ⟨_, inner, inside, _⟩ := truth_items null source 0
          refine Eq.trans inside ?_
          refine Eq.trans ?_ (congrArg (Condition.either · (some false)) inner).symm
          exact (either_false _).symm
  parts := by
    intro values index source
    cases values with
    | nil => cases index <;> rfl
    | cons value rest =>
        cases index with
        | zero =>
            by_cases null : value = .null
            · subst null
              rfl
            · obtain ⟨bare, inner, _, _⟩ := truth_items null source 0
              refine Eq.trans inner ?_
              refine Eq.trans ?_ (congrArg (Condition.both · (some true)) bare).symm
              exact (both_true _).symm
        | succ index =>
            have cut : ([itemKey].zip (value :: rest)).take (index + 1) = [(itemKey, value)] := by
              simp
            unfold keysetBranch
            rw [cut]
            exact (both_true _).symm
  notDistinct := by
    intro key listed column named index value source
    cases List.mem_singleton.mp listed
    cases named
    rfl
  falsity := by
    intro key listed last index source
    cases List.mem_singleton.mp listed
    rfl
  notNull := by
    intro key listed column named first
    cases List.mem_singleton.mp listed
    cases first
  nullOr := by
    intro key listed column named last index value source present
    cases List.mem_singleton.mp listed
    cases named
    refine (truth_items present source index).1.trans ?_
    change less (readItem value) (some (itemRank (.text (itemName source)))) =
      Condition.either (some false)
      (Condition.both (some true) (less (readItem value) (some (itemRank (.text (itemName source))))))
    rcases less (readItem value) (some (itemRank (.text (itemName source)))) with _ | _ | _ <;> rfl
  notNullAnd := by
    intro key listed column named first
    cases List.mem_singleton.mp listed
    cases first

/-- The rows after an item. -/
def itemsAfter (item : Nat) : QueryStatement :=
  conjunction [workTranslator.scopePredicate "t0",
    keysetPredicate ([itemKey].zip [.string (itemName item)])]

theorem items_chosen :
    itemSelection.chosen (workTranslator.scopePredicate "t0") = [1, 0, 2] ∧
      itemSelection.chosen (itemsAfter 0) = [1, 2] ∧ itemSelection.chosen (itemsAfter 1) = [2] ∧
      itemSelection.chosen (itemsAfter 2) = [] := by decide

theorem item_answers {parts : SelectionParts} (order : parts.order = [itemKey])
    (predicate : parts.predicate = workTranslator.scopePredicate "t0")
    (select : parts.select.parameters = []) (source : parts.source.parameters = []) :
    itemSelection.Answers itemAnswer parts 1 := by
  obtain ⟨whole, first, second, third⟩ := items_chosen
  obtain ⟨_, ⟨_, _⟩, ⟨_, _⟩, _⟩ := parts
  cases order
  cases predicate
  cases select
  cases source
  have sorted : [0, 1, 2].Pairwise fun left right =>
      ¬ itemSelection.Before [itemKey] right left := by decide
  rintro asked (rfl | ⟨last, listed, rfl⟩)
  · exact ⟨[0, 1, 2], (List.Perm.swap 1 0 [2]).trans (.of_eq whole.symm), sorted, rfl⟩
  · simp only [itemSelection, List.mem_cons, List.not_mem_nil, or_false] at listed
    rcases listed with rfl | rfl | rfl
    · exact ⟨[2], .of_eq second.symm, List.pairwise_singleton _ _, rfl⟩
    · exact ⟨[1, 2], .of_eq first.symm, sorted.of_cons, rfl⟩
    · exact ⟨[], .of_eq third.symm, .nil, rfl⟩

/-- The field of the targets in the column of the identity. -/
theorem named_identity {base : Targets × ResourceLayout × String}
    (baseOk : namedTranslator.base workPage = .ok base) {resource : Option String}
    {name tableAlias : String} {field : FieldLayout}
    (found : base.1.field resource name = .ok (tableAlias, field))
    (identity : field.column.text = "id") : field = identityField .string := by
  have only : base.1.layouts = [(namedLayout.ref.canonical, namedLayout)] := by
    cases baseOk
    rfl
  obtain ⟨canonical, _, found⟩ := bind_eq_ok found
  obtain ⟨layout, layoutOk, found⟩ := bind_eq_ok found
  rw [lookupKey, only, List.lookup_cons] at layoutOk
  split at layoutOk
  · rename_i looked
    split at looked
    · cases looked
      cases layoutOk
      split at found
      · cases found
      · rename_i named
        obtain ⟨_, _, found⟩ := bind_eq_ok found
        cases found
        have only : ∀ field ∈ namedLayout.fields, field.column.text = "id" →
            field = identityField .string := by decide
        exact only field (List.mem_of_find?_eq_some named) identity
    · cases looked
  · cases layoutOk

/-- The names that the items have, as the driver loads and passes them. -/
def item_stored {parts : SelectionParts} {base : Targets × ResourceLayout × String}
    (order : parts.order = [itemKey]) (baseOk : namedTranslator.base workPage = .ok base) :
    itemSelection.Stored roundingSession itemExecution base.1 parts where
  value := fun column item => if column.2 = "id" then some (.text (itemName item)) else none
  rank := itemRank
  rank_same := by
    intro left right same
    cases left with
    | duration interval => cases right <;> first | rfl | cases same
    | _ =>
        cases same
        rfl
  column := by
    intro name source
    simp only [itemSelection]
    split <;> rfl
  types := by
    intro key resource name tableAlias field listed column found source stored held
    rw [order] at listed
    cases List.mem_singleton.mp listed
    dsimp only at held
    split at held
    · cases held
      rw [named_identity baseOk found ‹_›]
      rfl
    · cases held
  null := fun _ => rfl
  reads := by
    intro key resource name tableAlias field listed column found held present
    rw [order] at listed
    cases List.mem_singleton.mp listed
    have identity : field.column.text = "id" := (Prod.mk.inj (Option.some.inj column)).2.symm
    rw [named_identity baseOk found identity]
    cases held with
    | null => exact absurd rfl present
    | _ => rfl
  results := by
    intro source listed index key column placed named
    rw [order] at placed
    cases index with
    | zero =>
        cases placed
        cases named
        exact ⟨_, rfl, _, rfl, rfl⟩
    | succ index => cases placed

/-- The three items come on three pages. -/
theorem items_on_pages : ∃ parts, ∃ sorted : List Nat,
    namedTranslator.selectionParts workPage = .ok parts ∧
    sorted.Perm (itemSelection.chosen parts.predicate) ∧
    sorted.Pairwise (itemSelection.Before parts.order) ∧ ∀ fuel, sorted.length < fuel →
      ∃ results, namedTranslator.allPages itemAnswer workPage workContext fuel none =
          some results ∧
        results.flatten = sorted.map (shownRow itemSelection parts) ∧
        ∀ page ∈ results.dropLast, page.length = 1 := by
  obtain ⟨parts, base, partsOk, baseOk, order, identity, own, predicate, select, source⟩ :=
    itemParts
  have evaluates : itemSelection.Evaluates parts.order parts.predicate := by
    rw [order, predicate]
    exact item_evaluates
  have single : (itemSelection.chosen parts.predicate).Pairwise fun left right =>
      ∃ name ∈ base.2.1.identity, ∃ field, base.2.1.field name = some field ∧
        itemSelection.column ("t0", field.column.text) left ≠
          itemSelection.column ("t0", field.column.text) right := by
    rw [identity, own, predicate]
    have apart : (itemSelection.chosen (workTranslator.scopePredicate "t0")).Pairwise
        fun left right => itemSelection.column ("t0", "id") left ≠
          itemSelection.column ("t0", "id") right := by decide
    exact apart.imp fun different => ⟨"id", List.mem_singleton_self _, _, rfl, different⟩
  have kept : (item_stored order baseOk).Kept := by
    intro item _ key listed column named value held
    dsimp only [item_stored] at held
    split at held
    · cases held
      trivial
    · cases held
  obtain ⟨sorted, same, strict, pages⟩ := @consecutive_pages _ _ _ namedTranslator workPage
    workContext parts itemSelection itemAnswer textSigner base roundingSession itemExecution
    evaluates (item_answers order predicate select source) rfl textSigner_verifies
    ⟨by decide, rfl, rfl⟩ (.inl rfl) Nat.one_pos (by decide) (List.forall_mem_nil _) baseOk
    partsOk (item_stored order baseOk) kept single
  exact ⟨parts, sorted, partsOk, same, strict, pages⟩

end PostgreSQLQueryTranslator

end MeridianPostgreSQL.Query
