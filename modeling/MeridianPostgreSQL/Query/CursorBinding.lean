import Mathlib.Data.Set.Function
import MeridianPostgreSQL.JsonText
import MeridianPostgreSQL.Query.Pages

/-! # What a cursor is bound to

A cursor continues the operation it was issued for, however little time is
left, and no other. -/

namespace MeridianPostgreSQL.Query

/-- The operation without the two things that may change from page to page. -/
def QueryOperation.unpaged (operation : QueryOperation) : QueryOperation :=
  { operation with
    page := { operation.page with cursor := none }
    budget := { operation.budget with deadlineMs := 30000 } }

/-- The operation is sent again for the next page. -/
def QueryOperation.resumed (operation : QueryOperation) (cursor : String) (deadlineMs : Nat) :
    QueryOperation :=
  { operation with
    page := { operation.page with cursor := some cursor }
    budget := { operation.budget with deadlineMs := deadlineMs } }

/-- An operation as the operation compiler passes it on. -/
def QueryOperation.plan (operation : QueryOperation) : Plan := ⟨operation, none, none, false⟩

/-- A context whose plan is another. -/
def TranslationContext.withPlan (context : TranslationContext) (fingerprint : String) :
    TranslationContext :=
  { context with planFingerprint := fingerprint }

def CompiledQuery.withPlan (compiled : CompiledQuery) (fingerprint : String) : CompiledQuery :=
  { compiled with planFingerprint := fingerprint }

/-- The pins of two contexts agree. -/
structure SamePins (left right : TranslationContext) : Prop where
  registry : left.registryFingerprint = right.registryFingerprint
  schemas : left.schemaFingerprints.Perm right.schemaFingerprints
  scope : left.scopeFingerprint = right.scopeFingerprint

/-- The operations ask for the same rows in pages of the same size. -/
structure SameQuery (left right : QueryOperation) : Prop where
  filter : left.filter = right.filter
  projection : left.projection = right.projection
  joins : left.joins = right.joins
  order : left.order = right.order
  targets : left.targets = right.targets
  pageSize : left.page.size = right.page.size
  limits : { left.budget with deadlineMs := 0 } = { right.budget with deadlineMs := 0 }
  others : left.unpaged = right.unpaged

theorem SameQuery.of_unpaged {left right : QueryOperation}
    (equal : left.unpaged = right.unpaged) : SameQuery left right := by
  have filter := congrArg QueryOperation.filter equal
  have projection := congrArg QueryOperation.projection equal
  have joins := congrArg QueryOperation.joins equal
  have order := congrArg QueryOperation.order equal
  have targets := congrArg QueryOperation.targets equal
  have pageSize := congrArg (fun operation => operation.page.size) equal
  have limits := congrArg
    (fun operation => { operation.budget with deadlineMs := 0 }) equal
  exact ⟨filter, projection, joins, order, targets, pageSize, limits, equal⟩

/-- A kind whose rows come in pages. -/
def OperationKind.Pages (kind : OperationKind) : Prop := kind = .scan ∨ kind = .search

/-- What a request needs besides a statement. -/
structure QueryOperation.Admitted (operation : QueryOperation) : Prop where
  consistency : operation.consistency ∈ ["strong", "session"]
  pointInTime : operation.page.pointInTime = false
  total : operation.includeTotal = false

namespace PostgreSQLQueryTranslator

variable {translator : PostgreSQLQueryTranslator} {operation : QueryOperation}
  {context : TranslationContext} {compiled : CompiledQuery}

/-! ## Compiling an operation -/

theorem compile_plan_iff (pages : operation.kind.Pages) :
    translator.compile operation.plan context = .ok compiled ↔
      operation.Admitted ∧ translator.compileSelect operation context = .ok compiled := by
  have selected : translator.compile operation.plan context =
      if operation.consistency ∉ ["strong", "session"] then
        .error (.value "query consistency is not advertised by this Adapter")
      else if operation.page.pointInTime then
        .error (.value "point-in-time pagination is not advertised by this Adapter")
      else if operation.includeTotal then
        .error (.value "total counts are not advertised by this Adapter")
      else translator.compileSelect operation context := by
    unfold compile QueryOperation.plan
    rcases pages with kind | kind <;> simp [kind]
  rw [selected]
  constructor
  · intro accepted
    split at accepted
    · exact nomatch accepted
    split at accepted
    · exact nomatch accepted
    split at accepted
    · exact nomatch accepted
    rename_i consistency point total
    exact ⟨⟨not_not.mp consistency, by simpa using point, by simpa using total⟩, accepted⟩
  · rintro ⟨admitted, accepted⟩
    rw [if_neg (not_not.mpr admitted.consistency), admitted.pointInTime, admitted.total]
    exact accepted

theorem compileSelect_deadline (deadlineMs : Nat) :
    translator.compileSelect
        { operation with budget := { operation.budget with deadlineMs := deadlineMs } } context =
      translator.compileSelect operation context := rfl

theorem bind_map {α β γ : Type} (first : Compiled α) (next : α → Compiled β) (change : β → γ) :
    (first >>= next).map change = first >>= fun value => (next value).map change := by
  cases first <;> rfl

/-- The plan of the context is only noted. -/
theorem compileSelect_withPlan (fingerprint : String) :
    translator.compileSelect operation (context.withPlan fingerprint) =
      (translator.compileSelect operation context).map fun compiled =>
        compiled.withPlan fingerprint := by
  unfold compileSelect
  simp only [bind_map]
  congr 1; funext targets
  congr 1; funext base
  congr 1; funext layout
  congr 1; funext tableAlias
  congr 1; funext joins
  congr 1; funext predicate
  split
  · rw [bind_map]
    rfl
  · rw [bind_map]
    rfl

/-! ## Issued cursors -/

/-- A payload carries the pins of an operation and of its context. -/
structure PinnedTo (translator : PostgreSQLQueryTranslator) (operation : QueryOperation)
    (context : TranslationContext) (payload : CursorPayload) : Prop where
  plan : payload.planFingerprint = translator.fingerprint operation.unpaged
  schemas : payload.schemaFingerprints.Perm context.schemaFingerprints
  registry : payload.registryFingerprint = context.registryFingerprint
  scope : payload.scopeFingerprint = context.scopeFingerprint
  size : payload.pageSize = operation.page.size

theorem nextCursor_issued {hasMore : Bool} {rows : List Row} {cursor : String}
    {pins : CursorContext} (pinned : compiled.cursorContext = some pins)
    (issued : translator.nextCursor compiled hasMore rows = .ok (some cursor)) :
    ∃ signer payload, translator.cursorSigner = some signer ∧
      cursor = signer.issue payload ∧ Pinned compiled pins payload := by
  have last : rows ≠ [] := by
    rintro rfl
    rw [nextCursor_none (.inr (.inl rfl))] at issued
    exact nomatch issued
  have sorted : compiled.cursorFields ≠ [] := by
    intro none
    rw [nextCursor_none (.inr (.inr none))] at issued
    exact nomatch issued
  have more : hasMore = true := by
    cases hasMore with
    | true => rfl
    | false =>
        rw [nextCursor_none (.inl rfl)] at issued
        exact nomatch issued
  obtain ⟨signer, payload, signed, same, held⟩ :=
    nextCursor_some last sorted pinned (more ▸ issued)
  exact ⟨signer, payload, signed, Option.some.inj same, held⟩

/-- A page that ends in a cursor ends in one with the pins of its operation. -/
theorem normalizeResult_issued {order : List OrderKey} {raw : List Row}
    {result : NormalizedQueryResult} {cursor : String}
    (cursored : Cursored translator operation context order compiled)
    (normal : translator.normalizeResult compiled raw = .ok result)
    (issued : result.cursor = some cursor) :
    ∃ signer payload, translator.cursorSigner = some signer ∧
      cursor = signer.issue payload ∧ PinnedTo translator operation context payload ∧
      payload.sortTuple.length = order.length := by
  rw [normalizeResult_eq cursored.empty] at normal
  cases found : translator.nextCursor compiled (compiled.pageSize < raw.length)
      (raw.take compiled.pageSize) with
  | error error => simp [found, Except.map] at normal
  | ok given =>
      rw [found] at normal
      cases normal
      cases issued
      obtain ⟨signer, payload, signed, same, pinned⟩ :=
        nextCursor_issued cursored.cursorContext found
      exact ⟨signer, payload, signed, same,
        ⟨pinned.plan, .of_eq pinned.schemas, pinned.registry, pinned.scope,
          pinned.size.trans cursored.pageSize⟩,
        pinned.tuple.trans cursored.cursorFields⟩

/-! ## Accepted cursors -/

theorem keyset_pinned {order : List OrderKey} {statement : QueryStatement} {cursor : String}
    (given : operation.page.cursor = some cursor)
    (accepted : translator.keyset operation context order = .ok statement) :
    ∃ signer payload, translator.cursorSigner = some signer ∧
      signer.verify cursor = .ok payload ∧ PinnedTo translator operation context payload := by
  unfold keyset at accepted
  rw [given] at accepted
  cases signed : translator.cursorSigner with
  | none => simp [signed] at accepted
  | some signer =>
      rw [signed] at accepted
      obtain ⟨payload, verified, accepted⟩ := bind_eq_ok accepted
      split at accepted
      · exact nomatch accepted
      · rename_i agrees
        simp only [not_or, not_not, ne_eq] at agrees
        obtain ⟨plan, schemas, registry, scope, size, _⟩ := agrees
        exact ⟨signer, payload, rfl, verified, plan, schemas, registry, scope, size⟩

/-- A selection with a cursor is compiled only if the cursor is accepted. -/
theorem compileSelect_pinned {cursor : String} (kind : operation.kind ≠ .aggregate)
    (given : operation.page.cursor = some cursor)
    (accepted : translator.compileSelect operation context = .ok compiled) :
    ∃ signer payload, translator.cursorSigner = some signer ∧
      signer.verify cursor = .ok payload ∧ PinnedTo translator operation context payload := by
  unfold compileSelect at accepted
  obtain ⟨targets, _, accepted⟩ := bind_eq_ok accepted
  obtain ⟨base, _, accepted⟩ := bind_eq_ok accepted
  obtain ⟨layout, _, accepted⟩ := bind_eq_ok accepted
  obtain ⟨tableAlias, _, accepted⟩ := bind_eq_ok accepted
  obtain ⟨joins, _, accepted⟩ := bind_eq_ok accepted
  obtain ⟨predicate, _, accepted⟩ := bind_eq_ok accepted
  rw [if_neg kind] at accepted
  obtain ⟨record, recordOk, _⟩ := bind_eq_ok accepted
  unfold recordStatement at recordOk
  obtain ⟨order, _, recordOk⟩ := bind_eq_ok recordOk
  obtain ⟨select, _, recordOk⟩ := bind_eq_ok recordOk
  obtain ⟨restricted, restrictedOk, _⟩ := bind_eq_ok recordOk
  unfold cursorPredicate at restrictedOk
  rw [given] at restrictedOk
  obtain ⟨statement, statementOk, _⟩ := bind_eq_ok restrictedOk
  exact keyset_pinned given statementOk

/-- The keyset of a payload with the right pins is compiled. -/
theorem keyset_pinned_ok {signer : CursorSigner} {cursor : String} {payload : CursorPayload}
    {order : List OrderKey} (signed : translator.cursorSigner = some signer)
    (given : operation.page.cursor = some cursor)
    (verified : signer.verify cursor = .ok payload)
    (pinned : PinnedTo translator operation context payload)
    (tuple : payload.sortTuple.length = order.length) :
    translator.keyset operation context order =
      .ok (keysetPredicate (order.zip payload.sortTuple)) := by
  unfold keyset
  rw [signed, given]
  dsimp only
  rw [verified]
  have plan : payload.planFingerprint = translator.cursorPlanFingerprint operation :=
    pinned.plan
  exact if_neg (by
    simp [plan, pinned.schemas, pinned.registry, pinned.scope, pinned.size, tuple])

/-- The operation is sent again with a cursor of one of its pages. -/
theorem resumed_accepted {signer : CursorSigner} {order : List OrderKey}
    {payload : CursorPayload} (pages : operation.kind.Pages)
    (signed : translator.cursorSigner = some signer)
    (verified : signer.verify (signer.issue payload) = .ok payload)
    (accepted : translator.compile operation.plan context = .ok compiled)
    (cursored : Cursored translator operation context order compiled)
    (pinned : PinnedTo translator operation context payload)
    (tuple : payload.sortTuple.length = order.length) (deadlineMs : Nat)
    (fingerprint : String) :
    ∃ next, translator.compile (operation.resumed (signer.issue payload) deadlineMs).plan
      (context.withPlan fingerprint) = .ok next := by
  have admitted := ((compile_plan_iff pages).mp accepted).1
  have keyed : translator.keyset { operation with
      page := { operation.page with cursor := some (signer.issue payload) } } context order =
      .ok (keysetPredicate (order.zip payload.sortTuple)) :=
    keyset_pinned_ok signed rfl verified
      ⟨pinned.plan, pinned.schemas, pinned.registry, pinned.scope, pinned.size⟩ tuple
  obtain ⟨next, nextOk⟩ := cursored.continues _ _ keyed
  have resumedPages : (operation.resumed (signer.issue payload) deadlineMs).kind.Pages := pages
  have resumedAdmitted : (operation.resumed (signer.issue payload) deadlineMs).Admitted :=
    ⟨admitted.consistency, admitted.pointInTime, admitted.total⟩
  have selected : translator.compileSelect (operation.resumed (signer.issue payload) deadlineMs)
      context = .ok next :=
    (@compileSelect_deadline translator { operation with
      page := { operation.page with cursor := some (signer.issue payload) } } context
      deadlineMs).trans nextOk
  refine ⟨next.withPlan fingerprint, (compile_plan_iff resumedPages).mpr ⟨resumedAdmitted, ?_⟩⟩
  rw [compileSelect_withPlan, selected]
  rfl

/-- A cursor that a page ends in is accepted for the same operation whatever its
deadline, and for another only if that asks for the same rows under the same
pins. Whatever cursor is given, no statement is made unless the signer issued
it for the operation and the context at hand. -/
theorem cursor_binding {signer : CursorSigner} {fingerprinted : Set QueryOperation}
    {raw : List Row} {result : NormalizedQueryResult} {cursor : String}
    (signed : translator.cursorSigner = some signer)
    (verifies : ∀ payload, signer.verify (signer.issue payload) = .ok payload)
    (issues : ∀ token payload, signer.verify token = .ok payload → token = signer.issue payload)
    (unambiguous : Set.InjOn translator.fingerprint fingerprinted)
    (pages : operation.kind.Pages) (known : operation.unpaged ∈ fingerprinted)
    (accepted : translator.compile operation.plan context = .ok compiled)
    (normal : translator.normalizeResult compiled raw = .ok result)
    (issued : result.cursor = some cursor) :
    (∀ deadlineMs fingerprint, ∃ next,
      translator.compile (operation.resumed cursor deadlineMs).plan
        (context.withPlan fingerprint) = .ok next) ∧
    (∀ (other : QueryOperation) (otherContext : TranslationContext) (next : CompiledQuery),
      other.kind.Pages → other.unpaged ∈ fingerprinted → other.page.cursor = some cursor →
      translator.compile other.plan otherContext = .ok next →
      SameQuery operation other ∧ SamePins context otherContext) ∧
    ∀ (other : QueryOperation) (otherContext : TranslationContext) (token : String),
      other.kind.Pages → other.page.cursor = some token →
      (¬∃ payload, token = signer.issue payload ∧
        PinnedTo translator other otherContext payload) →
      ∃ error, translator.compile other.plan otherContext = .error error := by
  have kinds : ∀ {kind : OperationKind}, kind.Pages → kind ≠ .aggregate := by
    rintro kind (rfl | rfl) <;> exact nofun
  have selected := ((compile_plan_iff pages).mp accepted).2
  obtain ⟨order, cursored⟩ := compileSelect_cursored (kinds pages) selected
  obtain ⟨_, payload, signed', rfl, pinned, tuple⟩ :=
    normalizeResult_issued cursored normal issued
  cases signed.symm.trans signed'
  refine ⟨resumed_accepted pages signed (verifies payload) accepted cursored pinned tuple,
    ?_, ?_⟩
  · intro other otherContext next otherPages otherKnown given nextOk
    have nextSelected := ((compile_plan_iff otherPages).mp nextOk).2
    obtain ⟨_, found, signed', verified, otherPinned⟩ :=
      compileSelect_pinned (kinds otherPages) given nextSelected
    cases signed.symm.trans signed'
    cases (verifies payload).symm.trans verified
    have equal : operation.unpaged = other.unpaged :=
      unambiguous known otherKnown (pinned.plan.symm.trans otherPinned.plan)
    exact ⟨.of_unpaged equal, pinned.registry.symm.trans otherPinned.registry,
      pinned.schemas.symm.trans otherPinned.schemas,
      pinned.scope.symm.trans otherPinned.scope⟩
  · intro other otherContext token otherPages given forged
    cases ended : translator.compile other.plan otherContext with
    | error error => exact ⟨error, rfl⟩
    | ok next =>
        have nextSelected := ((compile_plan_iff otherPages).mp ended).2
        obtain ⟨_, found, signed', verified, otherPinned⟩ :=
          compileSelect_pinned (kinds otherPages) given nextSelected
        cases signed.symm.trans signed'
        exact absurd ⟨found, issues token found verified, otherPinned⟩ forged

/-! ## Pages of the work queue -/

/-- The members of a cursor, as one value. -/
def payloadDocument (payload : CursorPayload) : Json :=
  .array [.string payload.planFingerprint,
    .object (payload.schemaFingerprints.map fun entry => (entry.1, .string entry.2)),
    .string payload.registryFingerprint, .string payload.scopeFingerprint,
    .array payload.sortTuple, .int payload.pageSize]

def payloadToken (payload : CursorPayload) : String := (payloadDocument payload).asText

theorem payloadToken_injective : Function.Injective payloadToken := by
  intro left right equal
  have documents : payloadDocument left = payloadDocument right :=
    Json.asText_injective equal
  have member : Function.Injective fun entry : String × String =>
      (entry.1, Json.string entry.2) := by
    rintro ⟨name, value⟩ ⟨other, held⟩ same
    simpa using same
  simp only [payloadDocument, Json.array.injEq, List.cons.injEq, Json.string.injEq,
    Json.object.injEq, Json.int.injEq, Int.natCast_inj, and_true,
    (List.map_injective_iff.mpr member).eq_iff] at documents
  obtain ⟨plan, schemas, registry, scope, tuple, size⟩ := documents
  cases left
  cases right
  simp_all

/-- Signs a cursor with its own text and reads back what has such a text. -/
noncomputable def textSigner : CursorSigner where
  issue := payloadToken
  verify := fun token =>
    match Function.partialInv payloadToken token with
    | some payload => .ok payload
    | none => .error (.value "cursor signature is invalid")

theorem textSigner_verifies (payload : CursorPayload) :
    textSigner.verify (textSigner.issue payload) = .ok payload := by
  simp [textSigner, Function.partialInv_left payloadToken_injective]

theorem textSigner_issues (token : String) (payload : CursorPayload)
    (verified : textSigner.verify token = .ok payload) : token = textSigner.issue payload := by
  unfold textSigner at verified
  dsimp only at verified
  split at verified
  · rename_i found inverse
    cases verified
    exact ((payloadToken_injective.isPartialInv _ _).mp inverse).symm
  · exact nomatch verified

noncomputable def signingTranslator : PostgreSQLQueryTranslator :=
  { workTranslator with
    cursorSigner := some textSigner
    fingerprint := fun operation => if operation.filter.isSome then "filtered" else "whole" }

/-- The work queue, an item on each page. -/
def workPage : QueryOperation :=
  { (workScan priority).operation with filter := none, page := ⟨1, none, false⟩ }

def workRows : List Row :=
  [[("id", .string "first"), ("__cursor_0", .string "first")],
    [("id", .string "second"), ("__cursor_0", .string "second")]]

theorem workPage_issued : ∃ compiled result cursor,
    signingTranslator.compile workPage.plan workContext = .ok compiled ∧
      signingTranslator.normalizeResult compiled workRows = .ok result ∧
      result.cursor = some cursor :=
  ⟨_, _, _, rfl, rfl, rfl⟩

/-- Pages of the same size of some of the items. -/
def filteredPage : QueryOperation := { workPage with filter := some priority }

/-- A cursor of one operation is accepted for it again and refused for another. -/
theorem workPage_resumes : ∃ cursor,
    (∀ deadlineMs fingerprint, ∃ next,
      signingTranslator.compile (workPage.resumed cursor deadlineMs).plan
        (workContext.withPlan fingerprint) = .ok next) ∧
    ∀ deadlineMs fingerprint, ∃ error,
      signingTranslator.compile (filteredPage.resumed cursor deadlineMs).plan
        (workContext.withPlan fingerprint) = .error error := by
  obtain ⟨compiled, result, cursor, accepted, normal, issued⟩ := workPage_issued
  have apart : signingTranslator.fingerprint workPage.unpaged ≠
      signingTranslator.fingerprint filteredPage.unpaged := by decide
  have unambiguous : Set.InjOn signingTranslator.fingerprint
      {workPage.unpaged, filteredPage.unpaged} := by
    rintro _ (rfl | rfl) _ (rfl | rfl) same
    · rfl
    · exact absurd same apart
    · exact absurd same.symm apart
    · rfl
  obtain ⟨resumes, bound, _⟩ := cursor_binding rfl textSigner_verifies textSigner_issues
    unambiguous (.inl rfl) (.inl rfl) accepted normal issued
  refine ⟨cursor, resumes, fun deadlineMs fingerprint => ?_⟩
  cases ended : signingTranslator.compile (filteredPage.resumed cursor deadlineMs).plan
      (workContext.withPlan fingerprint) with
  | error error => exact ⟨error, rfl⟩
  | ok next =>
      have same := (bound (filteredPage.resumed cursor deadlineMs) _ next (.inl rfl) (.inr rfl) rfl
        ended).1.filter
      exact nomatch same

end PostgreSQLQueryTranslator

end MeridianPostgreSQL.Query
