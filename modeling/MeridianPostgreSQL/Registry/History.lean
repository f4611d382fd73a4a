import MeridianPostgreSQL.Registry.SerialCalls

/-! # What serial calls keep

Facts about one call over the row it finds, and from them facts about any
calls that run one after another. -/

namespace MeridianPostgreSQL.Registry

variable {Document Report Version : Type} [LinearOrder Version]
  {semantics : Semantics Document Report Version}

/-! ## Effects -/

/-- What a call does to the row, by its outcome. -/
inductive CallEffect (semantics : Semantics Document Report Version)
    (record : CallRecord Document Report) (before : Option RegistryRow) :
    Option RegistryRow → Prop
  | failed (error : RegistryError) (outcome : record.outcome = .error error) :
      CallEffect semantics record before before
  | read (snapshot : RegistrySnapshot Document) (call : record.call = .snapshot)
      (outcome : record.outcome = .ok (.snapshot snapshot))
      (view : viewRow semantics before = some snapshot) :
      CallEffect semantics record before before
  | publicationReplayed (document expected allowBreaking result snapshot)
      (call : record.call = .publishSchema document expected allowBreaking)
      (outcome : record.outcome = .ok (.published result))
      (view : viewRow semantics before = some snapshot)
      (revision : expected = none ∨ expected = some snapshot.revision)
      (decided : PublicationDecided semantics snapshot document allowBreaking result none) :
      CallEffect semantics record before before
  | published (document expected allowBreaking result snapshot next)
      (call : record.call = .publishSchema document expected allowBreaking)
      (outcome : record.outcome = .ok (.published result))
      (view : viewRow semantics before = some snapshot)
      (revision : expected = none ∨ expected = some snapshot.revision)
      (decided : PublicationDecided semantics snapshot document allowBreaking result
        (some next)) :
      CallEffect semantics record before (some (storedRow semantics next))
  | deprecationReplayed (address expected reference result snapshot)
      (call : record.call = .deprecateSchema address expected)
      (outcome : record.outcome = .ok (.deprecated result))
      (view : viewRow semantics before = some snapshot)
      (revision : expected = none ∨ expected = some snapshot.revision)
      (decided : DeprecationDecided semantics snapshot reference result none) :
      CallEffect semantics record before before
  | deprecated (address expected reference result snapshot next)
      (call : record.call = .deprecateSchema address expected)
      (outcome : record.outcome = .ok (.deprecated result))
      (view : viewRow semantics before = some snapshot)
      (revision : expected = none ∨ expected = some snapshot.revision)
      (decided : DeprecationDecided semantics snapshot reference result (some next)) :
      CallEffect semantics record before (some (storedRow semantics next))

omit [LinearOrder Version] in
theorem map_eq_ok {α β : Type} {value : Except RegistryError α} {f : α → β} {result : β}
    (equal : value.map f = .ok result) : ∃ found, value = .ok found ∧ f found = result := by
  cases value with
  | error error => exact nomatch equal
  | ok found => exact ⟨found, rfl, Except.ok.inj equal⟩

theorem Answers.effect {record : CallRecord Document Report}
    {before after : Option RegistryRow} (answers : Answers semantics record before after) :
    CallEffect semantics record before after := by
  cases answers with
  | unserved error unread failed early => exact .failed error failed
  | refused reading error rows failed served => exact .failed error failed
  | served reading result after rows finished served =>
      unfold serve at served
      split at served
      · exact nomatch served
      · rename_i snapshot selected
        have view := viewRow_selects selected
        split at served
        · exact nomatch served
        · rename_i found decided
          cases served
          cases call : record.call with
          | snapshot =>
              rw [call] at decided
              cases decided
              exact .read snapshot call finished view
          | publishSchema document expected allowBreaking =>
              rw [call] at decided selected
              rcases map_eq_ok decided with ⟨⟨answer, next⟩, publication, same⟩
              cases same
              rcases decidePublication_ok view publication with ⟨revision, kind⟩
              cases kind with
              | replayed existing listed named same =>
                  rw [selects_of_listed selected listed]
                  exact .publicationReplayed document expected allowBreaking _ snapshot call
                    finished view revision (.replayed existing listed named same)
          | deprecateSchema address expected =>
              rw [call] at decided selected
              simp only [decideCall] at decided
              split at decided
              · exact nomatch decided
              · rename_i reference parsed
                rcases map_eq_ok decided with ⟨⟨answer, next⟩, deprecation, same⟩
                cases same
                rcases decideDeprecation_ok deprecation with ⟨revision, kind⟩
                cases kind with
                | replayed item listed named ended =>
                    rw [selects_of_listed selected listed]
                    exact .deprecationReplayed address expected reference answer snapshot
                      call finished view revision (.replayed answer listed named ended)
        · rename_i found next decided
          cases served
          cases call : record.call with
          | snapshot =>
              rw [call] at decided
              exact nomatch decided
          | publishSchema document expected allowBreaking =>
              rw [call] at decided
              rcases map_eq_ok decided with ⟨⟨answer, other⟩, publication, same⟩
              cases same
              rcases decidePublication_ok view publication with ⟨revision, kind⟩
              exact .published document expected allowBreaking answer snapshot next call
                finished view revision kind
          | deprecateSchema address expected =>
              rw [call] at decided
              simp only [decideCall] at decided
              split at decided
              · exact nomatch decided
              · rename_i reference parsed
                rcases map_eq_ok decided with ⟨⟨answer, other⟩, deprecation, same⟩
                cases same
                rcases decideDeprecation_ok deprecation with ⟨revision, kind⟩
                exact .deprecated address expected reference answer snapshot next call
                  finished view revision kind

/-! ## Growth -/

/-- The publication is still there: its document and publication time are the
same, and once deprecated it does not change at all. -/
structure KeptAs (item later : PublishedSchema Document) : Prop where
  document : later.document = item.document
  publishedAt : later.publishedAt = item.publishedAt
  ended : item.status = .deprecated → later = item

omit [LinearOrder Version] in
theorem KeptAs.refl (item : PublishedSchema Document) : KeptAs item item :=
  ⟨rfl, rfl, fun _ => rfl⟩

theorem KeptAs.trans {first second third : PublishedSchema Document}
    (left : KeptAs first second) (right : KeptAs second third) : KeptAs first third where
  document := right.document.trans left.document
  publishedAt := right.publishedAt.trans left.publishedAt
  ended := by
    intro ended
    have same := left.ended ended
    rw [right.ended (same ▸ ended), same]

/-- A later snapshot keeps every publication. -/
structure Grows (first last : RegistrySnapshot Document) : Prop where
  revision : first.revision ≤ last.revision
  publications : ∀ item ∈ first.schemas, ∃ later ∈ last.schemas, KeptAs item later

theorem Grows.refl (snapshot : RegistrySnapshot Document) : Grows snapshot snapshot :=
  ⟨le_rfl, fun item member => ⟨item, member, .refl item⟩⟩

theorem Grows.trans {first second third : RegistrySnapshot Document}
    (left : Grows first second) (right : Grows second third) : Grows first third where
  revision := left.revision.trans right.revision
  publications := by
    intro item member
    rcases left.publications item member with ⟨middle, listed, kept⟩
    rcases right.publications middle listed with ⟨last, final, still⟩
    exact ⟨last, final, kept.trans still⟩

theorem mem_snapshotOf {revision : Int} {publications : List (PublishedSchema Document)}
    {item : PublishedSchema Document} :
    item ∈ (snapshotOf semantics revision publications).schemas ↔ item ∈ publications :=
  List.mem_mergeSort

/-- A decision that writes keeps what was published and adds one to the
revision. -/
structure Changed (semantics : Semantics Document Report Version)
    (snapshot next : RegistrySnapshot Document) : Prop where
  stored : ∃ revision publications, next = snapshotOf semantics revision publications
  revision : next.revision = snapshot.revision + 1
  publications : ∀ item ∈ snapshot.schemas, ∃ later ∈ next.schemas, KeptAs item later

theorem Changed.grows {snapshot next : RegistrySnapshot Document}
    (changed : Changed semantics snapshot next) : Grows snapshot next :=
  ⟨by have raised := changed.revision; omega, changed.publications⟩

theorem PublicationDecided.changed {snapshot next : RegistrySnapshot Document}
    {document : Document} {allowBreaking : Bool} {result : PublishResult Document Report}
    (decided : PublicationDecided semantics snapshot document allowBreaking result
      (some next)) : Changed semantics snapshot next := by
  cases decided with
  | published first publishes =>
      refine ⟨⟨_, _, rfl⟩, rfl, ?_⟩
      intro item member
      exact ⟨item, mem_snapshotOf.mpr (List.mem_append_left _ member), .refl item⟩

theorem DeprecationDecided.changed {row : Option RegistryRow}
    {snapshot next : RegistrySnapshot Document}
    (view : viewRow semantics row = some snapshot) {reference : SchemaReference}
    {result : PublishedSchema Document}
    (decided : DeprecationDecided semantics snapshot reference result (some next)) :
    Changed semantics snapshot next := by
  cases decided with
  | deprecated item result listed named live document publishedAt status =>
      refine ⟨⟨_, _, rfl⟩, rfl, ?_⟩
      intro old member
      refine ⟨_, mem_snapshotOf.mpr (List.mem_map_of_mem member), ?_⟩
      by_cases same : old.ref semantics = reference
      · have equal : old = item := List.inj_on_of_nodup_map (refs_distinct view) member
          listed (same.trans named.symm)
        subst equal
        rw [if_pos same]
        exact ⟨document, publishedAt, fun ended => absurd ended live⟩
      · rw [if_neg same]
        exact .refl old

/-! ## One call -/

/-- A call leaves the row alone or writes a changed snapshot. Only a publication
or deprecation whose expected revision is the one it found writes. -/
theorem CallEffect.cases {record : CallRecord Document Report}
    {before after : Option RegistryRow} (effect : CallEffect semantics record before after) :
    after = before ∨ ∃ snapshot next, viewRow semantics before = some snapshot ∧
      after = some (storedRow semantics next) ∧ Changed semantics snapshot next ∧
      (record.call.expectedRevision = none ∨
        record.call.expectedRevision = some snapshot.revision) := by
  cases effect with
  | failed | read | publicationReplayed | deprecationReplayed => exact .inl rfl
  | published document expected allowBreaking result snapshot next call outcome view
      revision decided =>
      rw [call]
      exact .inr ⟨snapshot, next, view, rfl, decided.changed, revision⟩
  | deprecated address expected reference result snapshot next call outcome view
      revision decided =>
      rw [call]
      exact .inr ⟨snapshot, next, view, rfl, decided.changed view, revision⟩

/-- The call changed the registry. -/
def CallRecord.effective (record : CallRecord Document Report) : Bool :=
  match record.rows with
  | none => false
  | some (found, left) => revisionOf found ≠ revisionOf left

theorem Changed.raises {before : Option RegistryRow}
    {snapshot next : RegistrySnapshot Document}
    (changed : Changed semantics snapshot next)
    (view : viewRow semantics before = some snapshot) :
    revisionOf (some (storedRow semantics next)) = revisionOf before + 1 := by
  rw [← view_revision view, ← changed.revision]
  rfl

/-- An effective call raises the revision by one, found the revision it
expected and keeps every publication. Any other call changes nothing. -/
theorem Answers.changes {record : CallRecord Document Report}
    {before after : Option RegistryRow} (answers : Answers semantics record before after) :
    (record.effective = false ∧ after = before) ∨
      (record.effective = true ∧ ∃ snapshot next,
        viewRow semantics before = some snapshot ∧
        after = some (storedRow semantics next) ∧ Changed semantics snapshot next ∧
        (record.call.expectedRevision = none ∨
          record.call.expectedRevision = some snapshot.revision)) := by
  have effect := answers.effect.cases
  cases answers with
  | unserved error unread failed early => exact .inl ⟨by simp [CallRecord.effective, unread], rfl⟩
  | refused reading error rows failed served =>
      exact .inl ⟨by simp [CallRecord.effective, rows], rfl⟩
  | served reading result after rows finished served =>
      rcases effect with same | ⟨snapshot, next, view, written, changed, expected⟩
      · exact .inl ⟨by simp [CallRecord.effective, rows, same], same⟩
      · have raised := changed.raises view
        refine .inr ⟨?_, snapshot, next, view, written, changed, expected⟩
        have different : revisionOf before ≠ revisionOf before + 1 := by omega
        simp [CallRecord.effective, rows, written, raised, different]

theorem Answers.revision {record : CallRecord Document Report}
    {before after : Option RegistryRow} (answers : Answers semantics record before after) :
    revisionOf after = revisionOf before + (if record.effective then 1 else 0) := by
  rcases answers.changes with ⟨kept, rfl⟩ | ⟨effective, snapshot, next, view, rfl, changed, _⟩
  · simp [kept]
  · simp [effective, changed.raises view]

theorem Answers.grows {record : CallRecord Document Report}
    {before after : Option RegistryRow} (answers : Answers semantics record before after)
    {snapshot : RegistrySnapshot Document} (stores : Stores semantics before snapshot) :
    ∃ next, Stores semantics after next ∧ Grows snapshot next := by
  rcases answers.changes with ⟨_, rfl⟩ | ⟨_, found, next, view, rfl, changed, _⟩
  · exact ⟨snapshot, stores, .refl snapshot⟩
  · rcases changed.stored with ⟨revision, publications, same⟩
    rw [stores.viewed view]
    exact ⟨next, .inr ⟨revision, publications, same, rfl⟩, changed.grows⟩

/-! ## Any number of calls -/

theorem Serial.revision {before after : Option RegistryRow}
    {order : List (CallRecord Document Report)}
    (serial : Serial semantics before order after) :
    revisionOf after = revisionOf before + order.countP CallRecord.effective := by
  induction serial with
  | nil => simp
  | cons answers rest induction =>
      rw [induction, answers.revision, List.countP_cons]
      split <;> push_cast <;> omega

theorem Serial.grows {before after : Option RegistryRow}
    {order : List (CallRecord Document Report)}
    (serial : Serial semantics before order after) {snapshot : RegistrySnapshot Document}
    (stores : Stores semantics before snapshot) :
    ∃ last, Stores semantics after last ∧ Grows snapshot last := by
  induction serial generalizing snapshot with
  | nil => exact ⟨snapshot, stores, .refl snapshot⟩
  | cons answers rest induction =>
      rcases answers.grows stores with ⟨next, stored, first⟩
      rcases induction stored with ⟨last, final, second⟩
      exact ⟨last, final, first.trans second⟩

/-- An effective call with an expected revision finds that revision. -/
theorem Answers.expected {record : CallRecord Document Report}
    {before after : Option RegistryRow} (answers : Answers semantics record before after)
    (effective : record.effective = true) {expected : Int}
    (given : record.call.expectedRevision = some expected) :
    revisionOf before = expected := by
  rcases answers.changes with ⟨kept, _⟩ | ⟨_, snapshot, next, view, _, _, checked⟩
  · exact absurd effective (by simp [kept])
  · rcases checked with absent | same
    · exact nomatch given.symm.trans absent
    · cases given.symm.trans same
      exact (view_revision view).symm

/-- What a serial order of calls keeps. -/
structure SerialHistory (semantics : Semantics Document Report Version)
    (initial : Option RegistryRow) (order : List (CallRecord Document Report))
    (final : Option RegistryRow) : Prop where
  serial : Serial semantics initial order final
  revision : revisionOf final = revisionOf initial + order.countP CallRecord.effective
  calls : ∀ ⦃earlier record later⦄, order = earlier ++ record :: later →
    ∃ before after, Serial semantics initial earlier before ∧
      CallEffect semantics record before after ∧
      revisionOf after = revisionOf before + (if record.effective then 1 else 0) ∧
      (record.effective = false → after = before) ∧
      Serial semantics after later final
  kept : ∀ ⦃earlier later⦄, order = earlier ++ later →
    ∀ ⦃middle⦄, Serial semantics initial earlier middle →
    Serial semantics middle later final →
    ∀ ⦃snapshot⦄, Stores semantics middle snapshot →
    ∃ last, Stores semantics final last ∧ Grows snapshot last
  winner : ∀ ⦃earlier first between second later⦄,
    order = earlier ++ first :: (between ++ second :: later) →
    first.effective = true → second.effective = true →
    ∀ ⦃expected⦄, first.call.expectedRevision = some expected →
      second.call.expectedRevision ≠ some expected

theorem Serial.history {initial final : Option RegistryRow}
    {order : List (CallRecord Document Report)}
    (serial : Serial semantics initial order final) :
    SerialHistory semantics initial order final where
  serial := serial
  revision := serial.revision
  calls := by
    intro earlier record later split
    rw [split] at serial
    rcases serial.split with ⟨before, first, rest⟩
    cases rest with
    | @cons _ after _ _ _ answers rest =>
        refine ⟨before, after, first, answers.effect, answers.revision, ?_, rest⟩
        intro idle
        rcases answers.changes with ⟨_, same⟩ | ⟨effective, _⟩
        · exact same
        · exact absurd effective (by simp [idle])
  kept := fun _ _ _ _ _ rest _ stores => rest.grows stores
  winner := by
    intro earlier first between second later split firstEffective secondEffective expected
      given again
    rw [split] at serial
    rcases serial.split with ⟨before, _, rest⟩
    cases rest with
    | cons answers rest =>
        rcases rest.split with ⟨middle, between, last⟩
        cases last with
        | cons answersSecond _ =>
            have raised := answers.revision
            have same := answers.expected firstEffective given
            have later := answersSecond.expected secondEffective again
            have monotone := between.revision
            rw [firstEffective, if_pos rfl] at raised
            omega

end MeridianPostgreSQL.Registry
