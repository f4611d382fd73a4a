import MeridianPostgreSQL.Registry.Calls

/-! # Calls one at a time

What a call answers and writes over the row it finds, and what any serial
order of calls keeps: publications stay as they were published, versions of a
schema increase, and each change raises the revision by one. -/

namespace MeridianPostgreSQL.Registry

variable {Document Report Version : Type} [LinearOrder Version]
  (semantics : Semantics Document Report Version)

/-! ## One call -/

def decideCall (call : RegistryCall Document) (before : RegistrySnapshot Document)
    (reading : Int) : Except RegistryError
      (CallResult Document Report × Option (RegistrySnapshot Document)) :=
  match call with
  | .publishSchema document expected allowBreaking =>
      (decidePublication semantics before document expected allowBreaking
        (semantics.stamp reading)).map CallResult.ofPublication
  | .deprecateSchema reference expected =>
      match semantics.parseReference reference with
      | none => .error .definition
      | some reference =>
          (decideDeprecation semantics before reference expected
            (semantics.stamp reading)).map CallResult.ofDeprecation
  | .snapshot => .ok (.snapshot before, none)

/-- The row a call selects: a writing call has inserted a missing row. -/
def selects (call : RegistryCall Document) (row : Option RegistryRow) :
    Option RegistryRow :=
  match call with
  | .snapshot => row
  | _ => some (row.getD (emptyRow semantics))

/-- A call that runs alone over a row, and the row it leaves. -/
def serve (call : RegistryCall Document) (reading : Int) (row : Option RegistryRow) :
    Except RegistryError (CallResult Document Report × Option RegistryRow) :=
  match viewRow semantics (selects semantics call row) with
  | none => .error incompatible
  | some before =>
      match decideCall semantics call before reading with
      | .error error => .error error
      | .ok (result, none) => .ok (result, selects semantics call row)
      | .ok (result, some after) => .ok (result, some (storedRow semantics after))

/-- An error raised before the row is read: by an argument, the deadline, the
checks of the storage or the driver. -/
def RegistryError.Unserved : RegistryError → Prop
  | .deadline _ | .value _ | .definition | .incompatible _ | .driver => True
  | _ => False

/-- The record is what its call gives when it runs alone. -/
inductive Answers (record : CallRecord Document Report) (before : Option RegistryRow) :
    Option RegistryRow → Prop
  | unserved (error : RegistryError) (unread : record.rows = none)
      (failed : record.outcome = .error error) (early : error.Unserved) :
      Answers record before before
  | refused (reading : Int) (error : RegistryError)
      (rows : record.rows = some (before, before))
      (failed : record.outcome = .error error)
      (served : serve semantics record.call reading before = .error error) :
      Answers record before before
  | served (reading : Int) (result : CallResult Document Report)
      (after : Option RegistryRow) (rows : record.rows = some (before, after))
      (finished : record.outcome = .ok result)
      (served : serve semantics record.call reading before = .ok (result, after)) :
      Answers record before after

/-- Calls that run one after another. -/
inductive Serial : Option RegistryRow → List (CallRecord Document Report) →
    Option RegistryRow → Prop
  | nil (row) : Serial row [] row
  | cons {before middle after record records}
      (answers : Answers semantics record before middle)
      (rest : Serial middle records after) : Serial before (record :: records) after

variable {semantics}

theorem Serial.append {before middle after : Option RegistryRow}
    {first second : List (CallRecord Document Report)}
    (earlier : Serial semantics before first middle)
    (later : Serial semantics middle second after) :
    Serial semantics before (first ++ second) after := by
  induction earlier with
  | nil => exact later
  | cons answers rest induction => exact .cons answers (induction later)

theorem Serial.snoc {before middle after : Option RegistryRow}
    {records : List (CallRecord Document Report)}
    {record : CallRecord Document Report}
    (earlier : Serial semantics before records middle)
    (answers : Answers semantics record middle after) :
    Serial semantics before (records ++ [record]) after :=
  earlier.append (.cons answers (.nil after))

theorem Serial.split {before after : Option RegistryRow}
    {first second : List (CallRecord Document Report)}
    (serial : Serial semantics before (first ++ second) after) :
    ∃ middle, Serial semantics before first middle ∧
      Serial semantics middle second after := by
  induction first generalizing before with
  | nil => exact ⟨before, .nil before, serial⟩
  | cons record records induction =>
      cases serial with
      | cons answers rest =>
          rcases induction rest with ⟨middle, earlier, later⟩
          exact ⟨middle, .cons answers earlier, later⟩

/-! ## Rows and snapshots -/

def revisionOf (row : Option RegistryRow) : Int :=
  match row with
  | none => 0
  | some row => row.revision

/-- The row stores the snapshot: it decodes to it, or was written for it. -/
def Stores (semantics : Semantics Document Report Version) (row : Option RegistryRow)
    (snapshot : RegistrySnapshot Document) : Prop :=
  viewRow semantics row = some snapshot ∨
    ∃ revision publications, snapshot = snapshotOf semantics revision publications ∧
      row = some (storedRow semantics snapshot)

/-- A row that decodes stores nothing else. -/
theorem Stores.viewed {row : Option RegistryRow} {snapshot other : RegistrySnapshot Document}
    (stores : Stores semantics row snapshot) (view : viewRow semantics row = some other) :
    snapshot = other := by
  rcases stores with same | ⟨revision, publications, rfl, rfl⟩
  · exact Option.some.inj (same.symm.trans view)
  · exact (decodeRow_storedRow view).symm

theorem viewRow_ordered {row : Option RegistryRow} {snapshot : RegistrySnapshot Document}
    (view : viewRow semantics row = some snapshot) :
    ∃ publications, snapshot = snapshotOf semantics (revisionOf row) publications := by
  cases row with
  | none =>
      cases view
      exact ⟨[], rfl⟩
  | some row => exact (decodeRow_decoded view).ordered

theorem view_revision {row : Option RegistryRow} {snapshot : RegistrySnapshot Document}
    (view : viewRow semantics row = some snapshot) :
    snapshot.revision = revisionOf row := by
  rcases viewRow_ordered view with ⟨publications, rfl⟩
  rfl

/-- What a call selects shows the same snapshot as the row it found. -/
theorem viewRow_selects {call : RegistryCall Document} {row : Option RegistryRow}
    {snapshot : RegistrySnapshot Document}
    (view : viewRow semantics (selects semantics call row) = some snapshot) :
    viewRow semantics row = some snapshot := by
  cases row with
  | some row => cases call <;> exact view
  | none =>
      cases call with
      | snapshot => exact view
      | publishSchema | deprecateSchema =>
          have same := decodeRow_storedRow view
          rw [same]
          rfl

/-- A row with publications is selected as it is. -/
theorem selects_of_listed {call : RegistryCall Document} {row : Option RegistryRow}
    {snapshot : RegistrySnapshot Document} {item : PublishedSchema Document}
    (view : viewRow semantics (selects semantics call row) = some snapshot)
    (listed : item ∈ snapshot.schemas) : selects semantics call row = row := by
  cases row with
  | some row => cases call <;> rfl
  | none =>
      have empty := viewRow_selects view
      cases empty
      simp [snapshotOf] at listed

/-! ## Sorted versions -/

theorem precedes_pairwise (publications : List (PublishedSchema Document)) :
    (publications.mergeSort (precedes semantics)).Pairwise
      fun left right => sortKey semantics left ≤ sortKey semantics right := by
  have transitive : ∀ left middle right, precedes semantics left middle →
      precedes semantics middle right → precedes semantics left right := by
    intro left middle right
    simpa [precedes] using fun first second => le_trans first second
  have total : ∀ left right, precedes semantics left right || precedes semantics right left := by
    intro left right
    simpa [precedes] using le_total (sortKey semantics left) (sortKey semantics right)
  simpa [precedes] using List.pairwise_mergeSort transitive total publications

theorem sameSchema_iff {left right : SchemaReference} :
    sameSchema left right = true ↔ left.catalog = right.catalog ∧
      left.namespaceName = right.namespaceName ∧ left.name = right.name := by
  simp [sameSchema]

/-- Among the versions of one schema the sort compares versions. -/
theorem version_le_of_sortKey {left right : PublishedSchema Document}
    (same : sameSchema (left.ref semantics) (right.ref semantics) = true)
    (ordered : sortKey semantics left ≤ sortKey semantics right) :
    left.version semantics ≤ right.version semantics := by
  rcases sameSchema_iff.mp same with ⟨catalogs, namespaces, names⟩
  simpa [sortKey, Prod.Lex.toLex_le_toLex, catalogs, namespaces, names] using ordered

/-- The last version of a schema in a snapshot is the greatest. -/
theorem versionsOf_last {row : Option RegistryRow} {snapshot : RegistrySnapshot Document}
    (view : viewRow semantics row = some snapshot) {reference : SchemaReference}
    {last : PublishedSchema Document}
    (final : (versionsOf semantics snapshot reference).getLast? = some last)
    {item : PublishedSchema Document}
    (member : item ∈ versionsOf semantics snapshot reference) :
    item.version semantics ≤ last.version semantics := by
  rcases viewRow_ordered view with ⟨publications, rfl⟩
  have sorted : (versionsOf semantics (snapshotOf semantics (revisionOf row) publications)
      reference).Pairwise fun left right =>
        sortKey semantics left ≤ sortKey semantics right :=
    (precedes_pairwise publications).filter _
  have listed : ∀ other ∈ versionsOf semantics
      (snapshotOf semantics (revisionOf row) publications) reference,
      sameSchema (other.ref semantics) reference = true := by
    intro other found
    exact (List.mem_filter.mp found).2
  rcases List.getLast?_eq_some_iff.mp final with ⟨others, split⟩
  rw [split] at sorted member listed
  rcases List.mem_append.mp member with earlier | single
  · apply version_le_of_sortKey
    · have left := sameSchema_iff.mp (listed item (List.mem_append_left _ earlier))
      have right := sameSchema_iff.mp (listed last (by simp))
      rw [sameSchema_iff, left.1, left.2.1, left.2.2, right.1, right.2.1, right.2.2]
      simp
    · exact (List.pairwise_append.mp sorted).2.2 item earlier last (by simp)
  · cases List.mem_singleton.mp single
    exact le_rfl

theorem refs_distinct {row : Option RegistryRow} {snapshot : RegistrySnapshot Document}
    (view : viewRow semantics row = some snapshot) :
    (snapshot.schemas.map (PublishedSchema.ref semantics)).Nodup := by
  cases row with
  | none =>
      cases view
      simp [snapshotOf]
  | some row => exact (decodeRow_decoded view).distinct

/-! ## What a call changes -/

omit [LinearOrder Version] in
theorem checkRevision_ok {expected : Option Int} {observed : Int}
    (checked : checkRevision expected observed = .ok ()) :
    expected = none ∨ expected = some observed := by
  cases expected with
  | none => exact .inl rfl
  | some expected =>
      simp only [checkRevision] at checked
      split at checked
      · exact nomatch checked
      · split at checked
        · exact nomatch checked
        · rename_i same
          exact .inr (congrArg some (not_not.mp same))

/-- A new version over the versions of its schema. -/
structure Publishes (semantics : Semantics Document Report Version)
    (before : RegistrySnapshot Document) (document : Document) (allowBreaking : Bool)
    (result : PublishResult Document Report) : Prop where
  written : result.publication.document = document
  status : result.publication.status = .published
  revision : result.registryRevision = before.revision + 1
  increases : ∀ item ∈ versionsOf semantics before (semantics.reference document),
    item.version semantics < semantics.parseVersion (semantics.reference document).version
  compatible : allowBreaking = false →
    versionsOf semantics before (semantics.reference document) ≠ [] →
    ∃ previous ∈ versionsOf semantics before (semantics.reference document),
      (∀ item ∈ versionsOf semantics before (semantics.reference document),
        item.version semantics ≤ previous.version semantics) ∧
      semantics.breaking
        (semantics.classifyCompatibility previous.document document) = false

/-- What `publish_schema` decides when it raises no error. -/
inductive PublicationDecided (semantics : Semantics Document Report Version)
    (before : RegistrySnapshot Document) (document : Document) (allowBreaking : Bool) :
    PublishResult Document Report → Option (RegistrySnapshot Document) → Prop
  | replayed (existing : PublishedSchema Document) (listed : existing ∈ before.schemas)
      (named : existing.ref semantics = semantics.reference document)
      (same : semantics.fingerprint existing.document = semantics.fingerprint document) :
      PublicationDecided semantics before document allowBreaking
        ⟨existing, true, before.revision, none⟩ none
  | published (result : PublishResult Document Report) (first : result.idempotent = false)
      (publishes : Publishes semantics before document allowBreaking result) :
      PublicationDecided semantics before document allowBreaking result
        (some (snapshotOf semantics (before.revision + 1)
          (before.schemas ++ [result.publication])))

theorem checkPrevious_ok {row : Option RegistryRow} {before : RegistrySnapshot Document}
    (view : viewRow semantics row = some before) {document : Document}
    {allowBreaking : Bool} {report : Option Report}
    (checked : checkPrevious semantics
      (versionsOf semantics before (semantics.reference document)).getLast? document
      allowBreaking = .ok report) (publishedAt : String) :
    Publishes semantics before document allowBreaking
      ⟨⟨document, .published, publishedAt, none⟩, false, before.revision + 1, report⟩ := by
  cases final : (versionsOf semantics before (semantics.reference document)).getLast? with
  | none =>
      have empty := List.getLast?_eq_none_iff.mp final
      exact ⟨rfl, rfl, rfl, by simp [empty], fun _ some => absurd empty some⟩
  | some previous =>
      have listed := List.mem_of_getLast? final
      have greatest : ∀ item ∈ versionsOf semantics before (semantics.reference document),
          item.version semantics ≤ previous.version semantics :=
        fun item member => versionsOf_last view final member
      rw [final] at checked
      simp only [checkPrevious] at checked
      split at checked
      · exact nomatch checked
      · rename_i greater
        split at checked
        · exact nomatch checked
        · rename_i allowed
          refine ⟨rfl, rfl, rfl, ?_, ?_⟩
          · intro item member
            exact lt_of_le_of_lt (greatest item member) (not_le.mp greater)
          · intro strict _
            refine ⟨previous, listed, greatest, ?_⟩
            by_contra breaks
            exact allowed ⟨by simpa using breaks, strict⟩

theorem decidePublication_ok {row : Option RegistryRow}
    {before : RegistrySnapshot Document} (view : viewRow semantics row = some before)
    {document : Document} {expected : Option Int} {allowBreaking : Bool}
    {publishedAt : String} {result : PublishResult Document Report}
    {after : Option (RegistrySnapshot Document)}
    (decided : decidePublication semantics before document expected allowBreaking
      publishedAt = .ok (result, after)) :
    (expected = none ∨ expected = some before.revision) ∧
      PublicationDecided semantics before document allowBreaking result after := by
  unfold decidePublication at decided
  cases checked : checkRevision expected before.revision with
  | error error =>
      rw [checked] at decided
      exact nomatch decided
  | ok accepted =>
      refine ⟨checkRevision_ok checked, ?_⟩
      rw [checked] at decided
      dsimp only [bind, Except.bind] at decided
      split at decided
      · rename_i existing found
        split at decided
        · rename_i same
          cases decided
          exact .replayed existing (List.mem_filter.mp (List.mem_of_find?_eq_some found)).1
            (by simpa using List.find?_some found) same
        · exact nomatch decided
      · cases previous : checkPrevious semantics
          (versionsOf semantics before (semantics.reference document)).getLast? document
          allowBreaking with
        | error error =>
            rw [previous] at decided
            exact nomatch decided
        | ok report =>
            rw [previous] at decided
            cases decided
            exact .published _ rfl (checkPrevious_ok view previous publishedAt)

/-- What `deprecate_schema` decides when it raises no error. -/
inductive DeprecationDecided (semantics : Semantics Document Report Version)
    (before : RegistrySnapshot Document) (reference : SchemaReference) :
    PublishedSchema Document → Option (RegistrySnapshot Document) → Prop
  | replayed (item : PublishedSchema Document) (listed : item ∈ before.schemas)
      (named : item.ref semantics = reference) (ended : item.status = .deprecated) :
      DeprecationDecided semantics before reference item none
  | deprecated (item result : PublishedSchema Document) (listed : item ∈ before.schemas)
      (named : item.ref semantics = reference) (live : item.status ≠ .deprecated)
      (document : result.document = item.document)
      (publishedAt : result.publishedAt = item.publishedAt)
      (status : result.status = .deprecated) :
      DeprecationDecided semantics before reference result
        (some (snapshotOf semantics (before.revision + 1)
          (before.schemas.map fun old =>
            if old.ref semantics = reference then result else old)))

theorem decideDeprecation_ok {before : RegistrySnapshot Document}
    {reference : SchemaReference} {expected : Option Int} {deprecatedAt : String}
    {result : PublishedSchema Document} {after : Option (RegistrySnapshot Document)}
    (decided : decideDeprecation semantics before reference expected deprecatedAt =
      .ok (result, after)) :
    (expected = none ∨ expected = some before.revision) ∧
      DeprecationDecided semantics before reference result after := by
  unfold decideDeprecation at decided
  cases checked : checkRevision expected before.revision with
  | error error =>
      rw [checked] at decided
      exact nomatch decided
  | ok accepted =>
      refine ⟨checkRevision_ok checked, ?_⟩
      rw [checked] at decided
      dsimp only [bind, Except.bind] at decided
      split at decided
      · exact nomatch decided
      · rename_i item found
        have listed := List.mem_of_find?_eq_some found
        have named : item.ref semantics = reference := by
          simpa using List.find?_some found
        split at decided
        · rename_i ended
          cases decided
          exact .replayed _ listed named ended
        · rename_i live
          cases decided
          exact .deprecated item _ listed named live rfl rfl rfl

end MeridianPostgreSQL.Registry
