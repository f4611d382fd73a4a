import Mathlib.Data.Set.Card
import MeridianPostgreSQL.Foundation.OrderedLocks
import MeridianPostgreSQL.Foundation.SoloRuns
import MeridianPostgreSQL.Projection.PoisonBound

/-! # A lone worker drains the outbox

While no other transaction is open, a claim grants the first candidates, and a
granted event can be completed until its lease expires. A worker that claims and
completes until a claim grants nothing leaves only events that wait for an event
of their identity that is quarantined or under a live lease of another owner. -/

namespace MeridianPostgreSQL.Projection

open ReadCommitted

variable {EventId : Type} [LinearOrder EventId] {rows : OutboxStore EventId} {instant : Int}
  {workspace : Workspace (OutboxRow EventId)}

/-! ## Clocks -/

/-- The call reads the server's clock, or its caller's clock shows this instant. -/
def StartsAt (now : Option CallerClock) (instant : Int) : Prop :=
  ∀ caller, now = some caller → caller = ⟨instant, true⟩

section Clocks

variable {now : Option CallerClock} {post : Int → Int → Workspace (OutboxRow EventId) → Prop}
  {failed : OutboxError → Int → Prop}

theorem alone_currentTime (starts : StartsAt now instant)
    (holds : ∀ reading, instant ≤ reading → StartsAt now reading →
      post reading reading workspace) :
    (currentTime now : OutboxProgram EventId Int).Alone rows post failed instant
      workspace := by
  cases now with
  | none => exact fun reading later => holds reading later fun _ absent => by cases absent
  | some caller =>
      cases starts caller rfl
      exact holds instant le_rfl starts

theorem alone_finalTime (starts : StartsAt now instant)
    (holds : ∀ reading, instant ≤ reading → post reading reading workspace) :
    (finalTime now : OutboxProgram EventId Int).Alone rows post failed instant workspace := by
  cases now with
  | none => exact holds
  | some caller =>
      cases starts caller rfl
      exact holds instant le_rfl

end Clocks

/-! ## Claimable rows -/

theorem claimable_later {row : Option StateRow} {earlier later : Int}
    (free : claimable row earlier = true) (after : earlier ≤ later) :
    claimable row later = true := by
  cases row with
  | none => rfl
  | some row =>
      cases state : row.state with
      | leased lease =>
          simp only [claimable, state, decide_eq_true_eq] at free ⊢
          exact free.trans after
      | completed | retryable | quarantined => simp_all [claimable]

/-- A claimable row can be leased. -/
theorem leaseRow_of_claimable {row : Option StateRow} (lease : Lease)
    (free : claimable row lease.acquiredAt = true) :
    ∃ saved, leaseRow lease row = .put saved ∧ saved.state = .leased lease := by
  cases row with
  | none => exact ⟨_, rfl, rfl⟩
  | some row =>
      cases state : row.state with
      | leased held =>
          simp only [claimable, state, decide_eq_true_eq] at free
          exact ⟨⟨row.attempt + 1, Nat.succ_pos _, .leased lease⟩,
            by simp [leaseRow, state, free], rfl⟩
      | retryable failure =>
          exact ⟨⟨row.attempt + 1, Nat.succ_pos _, .leased lease⟩,
            by simp [leaseRow, state], rfl⟩
      | completed | quarantined => simp [claimable, state] at free

/-- The event is quarantined, or under a lease that is live at this reading. -/
def Stuck (row : Option StateRow) (reading : Int) : Prop :=
  ∃ stored, row = some stored ∧ (stored.Quarantined ∨
    ∃ lease, stored.state = .leased lease ∧ reading < lease.expiresAt)

theorem stuck_of_not_claimable {row : Option StateRow} {reading : Int}
    (unfinished : incomplete row = true) (taken : claimable row reading = false) :
    Stuck row reading := by
  cases row with
  | none => cases taken
  | some row =>
      refine ⟨row, rfl, ?_⟩
      cases state : row.state with
      | leased lease =>
          simp only [claimable, state, decide_eq_false_iff_not, not_le] at taken
          exact .inr ⟨lease, rfl, taken⟩
      | completed => simp [incomplete, StateRow.isCompleted, state] at unfinished
      | retryable => simp [claimable, state] at taken
      | quarantined failure => exact .inl ⟨failure, state⟩

/-! ## Unfinished events -/

/-- The matching intents that the projection has not completed. -/
def Outbox.unfinished (outbox : Outbox) (store : OutboxStore EventId) :
    Set (OutboxData EventId) :=
  { data | outbox.Visible store data ∧ incomplete (outbox.joined store data.eventId) = true }

/-- The keys of the matching intents. -/
def Outbox.matching (outbox : Outbox) (store : OutboxStore EventId) : Set (OutboxKey EventId) :=
  { key | outbox.wanted store key = true }

omit [LinearOrder EventId] in
theorem Outbox.unfinished_finite (outbox : Outbox) (finite : (outbox.matching rows).Finite) :
    (outbox.unfinished rows).Finite := by
  apply Set.Finite.of_injOn (f := fun data : OutboxData EventId =>
    OutboxKey.intent outbox.scope outbox.resource data.eventId) _ _ finite
  · exact fun data member => wanted_iff.mpr ⟨data, rfl, member.1⟩
  · rintro left ⟨first, _⟩ right ⟨second, _⟩ same
    exact first.unique second (OutboxKey.intent.inj same).2.2

/-- Every unfinished event has the first one of its identity before it. -/
theorem Outbox.first_unfinished (outbox : Outbox) (finite : (outbox.matching rows).Finite)
    {data : OutboxData EventId} (member : data ∈ outbox.unfinished rows) :
    ∃ first, outbox.LeastIncomplete rows first ∧ SameIdentity first data := by
  obtain ⟨first, ⟨unfinished, same⟩, least⟩ := Set.exists_min_image
    { other | other ∈ outbox.unfinished rows ∧ SameIdentity other data } orderKey
    ((outbox.unfinished_finite finite).subset fun _ both => both.1) ⟨data, member, rfl⟩
  refine ⟨first, ⟨unfinished.1, unfinished.2, ?_⟩, same⟩
  intro other visible alike incomplete
  by_cases identified : other.eventId = first.eventId
  · exact .inl (visible.unique unfinished.1 identified)
  · refine .inr ((Earlier.trichotomous identified).resolve_left ?_)
    exact not_lt.mpr (least other ⟨⟨visible, incomplete⟩, alike.trans same⟩)

/-- The first event of an identity is a candidate when it can be leased. -/
theorem candidates_of_least {outbox : Outbox} {keys : List (OutboxKey EventId)} {current : Int}
    (complete : ∀ key, key ∈ keys ↔ outbox.wanted rows key = true)
    {data : OutboxData EventId} (first : outbox.LeastIncomplete rows data)
    (free : claimable (outbox.joined rows data.eventId) current = true) :
    data ∈ outbox.candidates rows (intentsOf rows keys) current := by
  rw [Outbox.candidates, List.mem_mergeSort, List.mem_filter, Bool.and_eq_true,
    Bool.not_eq_true', List.any_eq_false]
  refine ⟨(mem_intentsOf complete).mpr first.visible, free, fun prior listed => ?_⟩
  simp only [Outbox.blocks, Bool.and_eq_true, decide_eq_true_eq, not_and]
  intro same earlier unfinished
  rcases first.least ((mem_intentsOf complete).mp listed) same unfinished with rfl | later
  · exact Earlier.irrefl _ earlier
  · exact Earlier.irrefl _ (earlier.trans later)

theorem candidates_free {outbox : Outbox}
    {intents : List (OutboxData EventId)} {current : Int} {data : OutboxData EventId}
    (member : data ∈ outbox.candidates rows intents current) :
    claimable (rows.state outbox.key data.eventId) current = true := by
  rw [Outbox.candidates, List.mem_mergeSort, List.mem_filter, Bool.and_eq_true] at member
  exact member.2.1

/-! ## A claim alone -/

section Claims

variable {outbox : Outbox} {released : ReleasedOutboxData EventId} {owner : String}
  {duration : Int} {positive : 0 < duration} {now : Option CallerClock}
  {failed : OutboxError → Int → Prop}

theorem alone_lockBatch (batch : List (OutboxData EventId)) (limit : Nat)
    {post : List (OutboxData EventId) → Int → Workspace (OutboxRow EventId) → Prop}
    (holds : ∀ after : Workspace (OutboxRow EventId), after.writes = workspace.writes →
      post (batch.take limit) instant after) :
    (outbox.lockBatch batch limit).Alone rows post failed instant workspace := by
  induction batch generalizing limit post workspace with
  | nil =>
      rw [List.take_nil] at holds
      exact holds workspace rfl
  | cons data rest induction =>
      cases limit with
      | zero => exact holds workspace rfl
      | succ limit =>
          unfold Outbox.lockBatch
          rw [Program.alone_bind, Program.alone_skipLocked, if_pos rfl, Program.alone_bind]
          exact induction limit fun after same => holds after same

/-- The store after the grants of a claim. -/
def Outbox.leasing (outbox : Outbox) (store : OutboxStore EventId)
    (grants : List (Grant EventId)) : OutboxStore EventId :=
  grants.foldl (fun store grant => store.setState outbox.key grant.data.eventId grant.row) store

/-- The grant is under a lease of this owner. -/
def Grant.OwnedBy (grant : Grant EventId) (owner : String) : Prop :=
  ∃ lease, grant.row.state = .leased lease ∧ lease.owner = owner

/-- Every row of the batch is leased, since nobody else can lease it first. -/
theorem alone_leaseRows (batch : List (OutboxData EventId)) (bytes : Nat)
    (starts : StartsAt now instant) (distinct : (batch.map OutboxData.eventId).Nodup)
    (free : ∀ data ∈ batch, claimable
      (OutboxStore.state (overlay workspace.writes rows) outbox.key data.eventId) instant = true)
    (fits : bytes + (batch.map released.jsonSize).sum ≤ outbox.maxResultBytes)
    {post : List (Grant EventId) → Int → Workspace (OutboxRow EventId) → Prop}
    (holds : ∀ grants later after, instant ≤ later → grants.map Grant.data = batch →
      (∀ grant ∈ grants, grant.OwnedBy owner) →
      overlay after.writes rows = outbox.leasing (overlay workspace.writes rows) grants →
      post grants later after) :
    (outbox.leaseRows released owner duration positive now batch bytes).Alone rows post failed
      instant workspace := by
  induction batch generalizing bytes post instant workspace with
  | nil => exact holds [] instant workspace le_rfl rfl (List.forall_mem_nil _) rfl
  | cons data rest induction =>
      unfold Outbox.leaseRows
      rw [List.map_cons, List.nodup_cons] at distinct
      rw [List.map_cons, List.sum_cons] at fits
      have small : ¬ outbox.maxResultBytes < bytes + released.jsonSize data := by omega
      dsimp only
      rw [if_neg small, Program.alone_bind]
      refine alone_currentTime starts fun reading later starts => ?_
      obtain ⟨row, taken, leased⟩ := leaseRow_of_claimable
        ⟨owner, reading, reading + duration, lt_add_of_pos_right reading positive⟩
        (claimable_later (free data List.mem_cons_self) later)
      rw [OutboxStore.state] at taken
      rw [Program.alone_bind, Program.alone_write, taken, Program.alone_bind]
      refine induction _ starts distinct.2 ?_ (by omega) ?_
      · intro other member
        rw [overlay_setState, OutboxStore.state_setState_of_ne]
        · exact claimable_later (free other (List.mem_cons_of_mem _ member)) later
        · rintro ⟨_, same⟩
          exact distinct.1 (same ▸ List.mem_map_of_mem member)
      · intro grants last after between listed owned stored
        refine holds (⟨data, row⟩ :: grants) last after (later.trans between) ?_ ?_ ?_
        · rw [List.map_cons, listed]
        · exact List.forall_mem_cons.mpr ⟨⟨_, leased, rfl⟩, owned⟩
        · rw [stored, overlay_setState]
          rfl

/-! ### What the grants leave -/

section Leasing

variable {store : OutboxStore EventId} {grants : List (Grant EventId)} {grant : Grant EventId}

theorem leasing_data (scope : ScopeKey) (resource : String) (event : EventId) :
    (outbox.leasing store grants).data scope resource event =
      store.data scope resource event := by
  induction grants generalizing store with
  | nil => rfl
  | cons head rest induction => exact induction

theorem leasing_state_of_notMem {event : EventId}
    (absent : event ∉ grants.map fun grant => grant.data.eventId) :
    (outbox.leasing store grants).state outbox.key event = store.state outbox.key event := by
  induction grants generalizing store with
  | nil => rfl
  | cons head rest induction =>
      rw [List.map_cons, List.mem_cons, not_or] at absent
      refine (induction absent.2).trans (OutboxStore.state_setState_of_ne _ _ _ _ ?_)
      exact fun same => absent.1 same.2.symm

theorem leasing_state (distinct : (grants.map fun grant => grant.data.eventId).Nodup)
    (member : grant ∈ grants) :
    (outbox.leasing store grants).state outbox.key grant.data.eventId = some grant.row := by
  induction grants generalizing store with
  | nil => cases member
  | cons head rest induction =>
      rw [List.map_cons, List.nodup_cons] at distinct
      rcases List.mem_cons.mp member with rfl | member
      · exact (leasing_state_of_notMem distinct.1).trans (OutboxStore.state_setState_self _ _ _ _)
      · exact induction distinct.2 member

end Leasing

/-- A claim that ran alone: what it granted, and why it granted nothing. -/
structure Claimed (outbox : Outbox) (owner : String) (before after : OutboxStore EventId)
    (grants : List (Grant EventId)) (begun later : Int) : Prop where
  distinct : (grants.map fun grant => grant.data.eventId).Nodup
  owned : ∀ grant ∈ grants, grant.OwnedBy owner
  unfinished : ∀ grant ∈ grants, grant.data ∈ outbox.unfinished before
  stored : after = outbox.leasing before grants
  exhausted : grants = [] → ∃ reading, begun ≤ reading ∧ reading ≤ later ∧
    ∀ data, outbox.LeastIncomplete before data →
      claimable (outbox.joined before data.eventId) reading = false

/-- The granted events are in view, in the leased rows. -/
theorem Claimed.held {before after : OutboxStore EventId} {grants : List (Grant EventId)}
    {begun later : Int} (claimed : Claimed outbox owner before after grants begun later) :
    ∀ grant ∈ grants, outbox.Visible after grant.data ∧
      after.state outbox.key grant.data.eventId = some grant.row := by
  intro grant member
  have visible := (claimed.unfinished grant member).1
  rw [claimed.stored]
  exact ⟨⟨(leasing_data _ _ _).trans visible.stored, visible.selected⟩,
    leasing_state claimed.distinct member⟩

/-- So many intents always fit the result limit. -/
def Outbox.Fits (outbox : Outbox) (released : ReleasedOutboxData EventId) (limit : Nat)
    (store : OutboxStore EventId) : Prop :=
  ∀ batch : List (OutboxData EventId), (batch.map OutboxData.eventId).Nodup →
    (∀ data ∈ batch, outbox.Visible store data) → batch.length ≤ limit →
    (batch.map released.jsonSize).sum ≤ outbox.maxResultBytes

theorem alone_claim {limit : Int} (named : owner ≠ "")
    (limited : 1 ≤ limit ∧ limit ≤ outbox.maxBatchSize) (positive : 0 < duration)
    (finite : (outbox.matching rows).Finite) (fits : outbox.Fits released limit.toNat rows)
    (starts : StartsAt now instant) :
    (outbox.atomicClaim released owner limit duration now).Alone rows
      (fun outcome later after => ∃ claim, outcome = .claimed claim ∧
        Claimed outbox owner rows (overlay after.writes rows) claim.grants instant later)
      (fun _ _ => False) instant .fresh := by
  unfold Outbox.atomicClaim
  rw [if_neg named, if_neg (not_not.mpr limited), dif_pos positive, Program.alone_bind]
  refine alone_currentTime starts fun reading begins starts => ?_
  rw [Program.alone_bind]
  refine ⟨?_, fun keys nodup complete => ?_⟩
  · exact ⟨finite.toFinset.toList, Finset.nodup_toList _,
      fun key => Finset.mem_toList.trans finite.mem_toFinset⟩
  · have listedKeys : ∀ key, key ∈ keys ↔ outbox.wanted rows key = true := complete
    have unique : ((outbox.candidates rows (intentsOf rows keys) reading).map
        OutboxData.eventId).Nodup := candidates_distinct nodup listedKeys
    change (outbox.lockBatch (outbox.candidates rows (intentsOf rows keys) reading)
      limit.toNat >>= _).Alone _ _ _ _ _
    rw [Program.alone_bind]
    generalize chosen : outbox.candidates rows (intentsOf rows keys) reading = candidates
    rw [chosen] at unique
    have least : ∀ data ∈ candidates, outbox.LeastIncomplete rows data :=
      fun data member => candidates_least listedKeys (chosen ▸ member)
    refine alone_lockBatch _ _ fun locked same => ?_
    have clean : overlay locked.writes rows = rows := by rw [same]; rfl
    have taken : ∀ data ∈ candidates.take limit.toNat, data ∈ candidates :=
      fun data => List.mem_of_mem_take
    have distinct : ((candidates.take limit.toNat).map OutboxData.eventId).Nodup :=
      unique.sublist ((List.take_sublist _ _).map _)
    rw [Program.alone_bind]
    refine alone_leaseRows _ 0 starts distinct ?_ ?_ ?_
    · intro data member
      rw [clean]
      exact candidates_free (chosen ▸ taken data member)
    · rw [Nat.zero_add]
      exact fits _ distinct (fun data member => (least data (taken data member)).visible)
        (List.length_take_le _ _)
    · intro grants later after between listed owned stored
      refine ⟨⟨outbox, owner, now, rows, grants⟩, rfl, ?_, owned, ?_, ?_, ?_⟩
      · rw [← listed, List.map_map] at distinct
        exact distinct
      · intro grant member
        have first := least _ (taken _ (listed ▸ List.mem_map_of_mem member))
        exact ⟨first.visible, first.unfinished⟩
      · rw [stored, clean]
      · rintro rfl
        have none : candidates = [] := by
          rcases List.take_eq_nil_iff.mp listed.symm with zero | empty
          · omega
          · exact empty
        refine ⟨reading, begins, between, fun data first => ?_⟩
        by_contra free
        have member := candidates_of_least listedKeys first (Bool.eq_true_of_not_eq_false free)
        rw [chosen, none] at member
        cases member

end Claims

/-! ## Finished events -/

section Finished

variable {outbox : Outbox} {before middle after : OutboxStore EventId} {event : EventId}
  {events : List EventId} {data : OutboxData EventId}

/-- The events are completed; no other state of the projection and no intent has
changed. -/
structure Outbox.Finished (outbox : Outbox) (before after : OutboxStore EventId)
    (events : List EventId) : Prop where
  intents : ∀ scope resource event,
    after.data scope resource event = before.data scope resource event
  others : ∀ event, event ∉ events →
    outbox.joined after event = outbox.joined before event
  completed : ∀ event ∈ events, incomplete (outbox.joined after event) = false

namespace Outbox.Finished

theorem completion (outbox : Outbox) (store : OutboxStore EventId) (partition : String)
    (saved : CheckpointRow EventId) (event : EventId) (row : StateRow)
    (ended : row.isCompleted = true) :
    outbox.Finished store (OutboxStore.setState (OutboxStore.setCheckpoint store outbox.key
      partition saved) outbox.key event row) [event] where
  intents _ _ _ := rfl
  others other absent := by
    refine (OutboxStore.state_setState_of_ne _ _ _ _ ?_).trans rfl
    exact fun same => absent (List.mem_singleton.mpr same.2.symm)
  completed other member := by
    cases List.mem_singleton.mp member
    rw [Outbox.joined, OutboxStore.state_setState_self, incomplete, ended]
    rfl

omit [LinearOrder EventId] in
theorem cons (first : outbox.Finished before middle [event])
    (rest : outbox.Finished middle after events) (absent : event ∉ events) :
    outbox.Finished before after (event :: events) where
  intents scope resource other :=
    (rest.intents scope resource other).trans (first.intents scope resource other)
  others other outside := by
    rw [List.mem_cons, not_or] at outside
    have apart : other ∉ [event] := fun member => outside.1 (List.mem_singleton.mp member)
    exact (rest.others other outside.2).trans (first.others other apart)
  completed other member := by
    rcases List.mem_cons.mp member with rfl | member
    · rw [rest.others other absent]
      exact first.completed other (List.mem_singleton_self other)
    · exact rest.completed other member

omit [LinearOrder EventId] in
theorem visible (finished : outbox.Finished before after events) :
    outbox.Visible after data ↔ outbox.Visible before data := by
  have same := finished.intents outbox.key.scope outbox.key.resource data.eventId
  exact ⟨fun visible => ⟨same.symm.trans visible.stored, visible.selected⟩,
    fun visible => ⟨same.trans visible.stored, visible.selected⟩⟩

omit [LinearOrder EventId] in
theorem matching (finished : outbox.Finished before after events) :
    outbox.matching after = outbox.matching before := by
  ext key
  change outbox.wanted after key = true ↔ outbox.wanted before key = true
  rw [wanted_iff, wanted_iff]
  exact exists_congr fun data => and_congr_right fun _ => finished.visible

omit [LinearOrder EventId] in
theorem fits {released : ReleasedOutboxData EventId} {limit : Nat}
    (finished : outbox.Finished before after events) (fits : outbox.Fits released limit before) :
    outbox.Fits released limit after :=
  fun batch distinct present =>
    fits batch distinct fun data member => finished.visible.mp (present data member)

omit [LinearOrder EventId] in
/-- A finished event is one unfinished event less. -/
theorem unfinished_lt (finished : outbox.Finished before after events)
    (finite : (outbox.matching before).Finite) (member : data ∈ outbox.unfinished before)
    (listed : data.eventId ∈ events) :
    (outbox.unfinished after).ncard < (outbox.unfinished before).ncard := by
  refine Set.ncard_lt_ncard ⟨?_, fun all => ?_⟩ (outbox.unfinished_finite finite)
  · rintro other ⟨visible, unfinished⟩
    have outside : other.eventId ∉ events := fun inside => by
      rw [finished.completed _ inside] at unfinished
      cases unfinished
    rw [finished.others _ outside] at unfinished
    exact ⟨finished.visible.mp visible, unfinished⟩
  · have unfinished := (all member).2
    rw [finished.completed _ listed] at unfinished
    cases unfinished

end Outbox.Finished

/-- Each event of the projection is where it was or completed, and no intent has
changed. -/
structure Outbox.Works (outbox : Outbox) (before after : OutboxStore EventId) : Prop where
  intents : ∀ scope resource event,
    after.data scope resource event = before.data scope resource event
  states : ∀ event, outbox.joined after event = outbox.joined before event ∨
    incomplete (outbox.joined after event) = false

namespace Outbox.Works

omit [LinearOrder EventId] in
theorem refl (outbox : Outbox) (store : OutboxStore EventId) : outbox.Works store store :=
  ⟨fun _ _ _ => rfl, fun _ => .inl rfl⟩

theorem finished (works : outbox.Works before middle)
    (finished : outbox.Finished middle after events) : outbox.Works before after where
  intents scope resource event :=
    (finished.intents scope resource event).trans (works.intents scope resource event)
  states event := by
    by_cases member : event ∈ events
    · exact .inr (finished.completed event member)
    · rw [finished.others event member]
      exact works.states event

end Outbox.Works

/-- The events of the grants of a claim, once they are completed. -/
theorem Claimed.finished {owner : String} {grants : List (Grant EventId)} {begun later : Int}
    (claimed : Claimed outbox owner before middle grants begun later)
    (finished : outbox.Finished middle after (grants.map fun grant => grant.data.eventId)) :
    outbox.Finished before after (grants.map fun grant => grant.data.eventId) where
  intents scope resource event := by
    rw [finished.intents, claimed.stored, leasing_data]
  others event absent := by
    rw [finished.others event absent, claimed.stored]
    exact leasing_state_of_notMem absent
  completed := finished.completed

end Finished

/-! ## A completion alone -/

section Completions

variable {outbox : Outbox} {released : ReleasedOutboxData EventId} {owner : String}
  {now : Option CallerClock} {data : OutboxData EventId} {row : StateRow} {lease : Lease}
  {failed : OutboxError → Int → Prop}

omit [LinearOrder EventId] in
theorem advanceCheckpoint_read (row : Option (CheckpointRow EventId))
    (saved : CheckpointRow EventId) :
    advanceCheckpoint (checkpointRevision row) saved row = .put saved := by
  cases row with
  | none => rfl
  | some row => exact if_pos rfl

theorem alone_load (visible : outbox.Visible rows data)
    (present : rows.state outbox.key data.eventId = some row)
    {post : OutboxData EventId × Option StateRow → Int → Workspace (OutboxRow EventId) → Prop}
    (holds : ∀ after : Workspace (OutboxRow EventId), after.Unwritten →
      post (data, some row) instant after) :
    (outbox.load data.eventId).Alone rows post failed instant .fresh := by
  have wanted : outbox.wanted rows (.intent outbox.scope outbox.resource data.eventId) = true :=
    wanted_iff.mpr ⟨data, rfl, visible⟩
  obtain ⟨intent, found, same⟩ := Option.map_eq_some_iff.mp visible.stored
  rw [OutboxStore.intent, Outbox.key_scope, Outbox.key_resource] at found
  unfold Outbox.load
  rw [Program.alone_bind, Program.alone_select, Workspace.fresh_unwritten.overlay]
  rw [if_neg (by rw [wanted]; exact Bool.noConfusion), Program.alone_bind,
    Program.alone_selectForUpdate, Workspace.fresh_unwritten.overlay, found]
  dsimp only
  rw [same, if_pos visible.selected, Program.alone_bind, Program.alone_select,
    (Workspace.fresh_unwritten.lockRow _ _).overlay]
  have joined : outbox.joined rows data.eventId = some row := present
  rw [joined]
  exact holds _ (Workspace.fresh_unwritten.lockRow _ _)

theorem alone_leased (visible : outbox.Visible rows data)
    (present : rows.state outbox.key data.eventId = some row) (leased : row.state = .leased lease)
    (owned : lease.owner = owner) (starts : StartsAt now instant)
    {post : OutboxData EventId × StateRow × Int → Int → Workspace (OutboxRow EventId) → Prop}
    (holds : ∀ reading, StartsAt now reading → ∀ after : Workspace (OutboxRow EventId),
      after.Unwritten → post (data, row, reading) reading after)
    (late : ∀ failure later, lease.expiresAt ≤ later → failed failure later) :
    (outbox.leased data.eventId owner now).Alone rows post failed instant .fresh := by
  unfold Outbox.leased
  rw [Program.alone_bind]
  refine alone_load visible present fun after unwritten => ?_
  dsimp only
  rw [Program.alone_bind]
  refine alone_currentTime starts fun reading _ starts => ?_
  split
  · rename_i lost
    simp only [leaseLost, leased, owned, ne_eq, not_true_eq_false, decide_false, Bool.false_or,
      decide_eq_true_eq] at lost
    exact late _ _ lost
  · exact holds reading starts after unwritten

/-- The owner of a live lease completes its event. -/
theorem alone_complete {fingerprint : String} (visible : outbox.Visible rows data)
    (present : rows.state outbox.key data.eventId = some row) (leased : row.state = .leased lease)
    (owned : lease.owner = owner) (marked : isFingerprint fingerprint = true)
    (starts : StartsAt now instant) :
    (outbox.complete released data.eventId owner data.sourceVersion fingerprint now).Alone rows
      (fun _ _ after =>
        outbox.Finished rows (overlay after.writes rows) [data.eventId])
      (fun _ later => lease.expiresAt ≤ later) instant .fresh := by
  unfold Outbox.complete
  rw [if_neg (by rw [marked]; exact Bool.noConfusion), Program.alone_bind]
  refine alone_leased visible present leased owned starts ?_ fun _ _ late => late
  intro reading starts after unwritten
  dsimp only
  rw [if_neg (not_not.mpr rfl), Program.alone_bind, Program.alone_select, Program.alone_bind,
    Program.alone_write, OutboxStore.checkpoint, advanceCheckpoint_read]
  dsimp only
  rw [Program.alone_bind]
  refine alone_finalTime starts fun final _ => ?_
  rw [Program.alone_bind, Program.alone_write, overlay_setCheckpoint, unwritten.overlay]
  have stays : ∀ saved, OutboxStore.setCheckpoint rows outbox.key (released.partitionKey data)
      saved (.state outbox.key data.eventId) = some row := fun _ => present
  rw [stays]
  by_cases live : final < lease.expiresAt
  · have ended : finishLease owner final (.completed fingerprint reading) (some row) =
        .put { row with state := .completed fingerprint reading } := by
      simp [finishLease, leased, owned, live]
    rw [ended]
    rw [Program.alone_pure, overlay_setState, overlay_setCheckpoint, unwritten.overlay]
    exact .completion outbox rows _ _ data.eventId _ rfl
  · have kept : finishLease owner final (.completed fingerprint reading) (some row) =
        .keep := by
      simp [finishLease, leased, live]
    rw [kept]
    exact not_lt.mp live

end Completions

/-! ## The worker -/

/-- A worker that claims under one name and completes what it is granted. -/
structure Worker (EventId : Type) where
  outbox : Outbox
  owner : String
  limit : Int
  duration : Int
  fingerprint : OutboxData EventId → String
  named : owner ≠ ""
  limited : 1 ≤ limit ∧ limit ≤ outbox.maxBatchSize
  positive : 0 < duration
  marked : ∀ data, isFingerprint (fingerprint data) = true

/-- The lease of the grant has expired. -/
def Grant.Late (grant : Grant EventId) (instant : Int) : Prop :=
  ∃ lease, grant.row.state = .leased lease ∧ lease.expiresAt ≤ instant

namespace Worker

variable (worker : Worker EventId) (released : ReleasedOutboxData EventId)

/-- Every run of a claim that begins now or later ends in `next`, of its first and
last instant. -/
def Claims (next : List (Grant EventId) → Int → Int → OutboxStore EventId → Prop) (instant : Int)
    (rows : OutboxStore EventId) : Prop :=
  ∀ begun now, instant ≤ begun → StartsAt now begun →
    SoloEnds rows
      (fun outcome later workspace => ∃ claim, outcome = .claimed claim ∧
        next claim.grants begun later (overlay workspace.writes rows))
      (fun _ _ => False)
      (begun, ⟨.fresh, worker.outbox.atomicClaim released worker.owner worker.limit
        worker.duration now⟩)

/-- Every run that completes the grants one by one ends in `next`, unless a
completion comes after its lease. -/
def Completes (next : Int → OutboxStore EventId → Prop) :
    List (Grant EventId) → Int → OutboxStore EventId → Prop
  | [], instant, rows => next instant rows
  | grant :: rest, instant, rows => ∀ begun now, instant ≤ begun → StartsAt now begun →
      SoloEnds rows
        (fun _ later workspace => Completes next rest later (overlay workspace.writes rows))
        (fun _ later => grant.Late later)
        (begun, ⟨.fresh, worker.outbox.complete released grant.data.eventId worker.owner
          grant.data.sourceVersion (worker.fingerprint grant.data) now⟩)

/-- Every run of the worker grants something in so many rounds at most, and ends
in `drained`. -/
def DrainsWithin (drained : Int → Int → OutboxStore EventId → Prop) :
    Nat → Int → OutboxStore EventId → Prop
  | 0 => worker.Claims released fun grants begun later rows =>
      grants = [] ∧ drained begun later rows
  | rounds + 1 => worker.Claims released fun grants begun later rows =>
      (grants = [] → drained begun later rows) ∧ (grants ≠ [] →
        worker.Completes released (DrainsWithin drained rounds) grants later rows)

end Worker

/-- The work goes on from the store before. What is unfinished waits for the
first event of its identity, and that one was quarantined or under a live lease
when the last claim, which ran from `begun` to `later`, looked. -/
structure Outbox.Drained (outbox : Outbox) (before : OutboxStore EventId) (begun later : Int)
    (after : OutboxStore EventId) : Prop where
  works : outbox.Works before after
  waits : ∀ data ∈ outbox.unfinished after, ∃ first, outbox.LeastIncomplete after first ∧
    SameIdentity first data ∧ ∃ reading, begun ≤ reading ∧ reading ≤ later ∧
      Stuck (outbox.joined after first.eventId) reading

section Runs

variable {outbox : Outbox} {released : ReleasedOutboxData EventId}
  {before after : OutboxStore EventId}

/-- A claim that grants nothing has drained the outbox. -/
theorem Claimed.drained {owner : String} {begun later : Int}
    (claimed : Claimed outbox owner rows after [] begun later)
    (works : outbox.Works before rows) (finite : (outbox.matching rows).Finite) :
    outbox.Drained before begun later after := by
  have same : after = rows := claimed.stored
  subst same
  refine ⟨works, fun data member => ?_⟩
  obtain ⟨first, least, identity⟩ := outbox.first_unfinished finite member
  obtain ⟨reading, since, past, taken⟩ := claimed.exhausted rfl
  exact ⟨first, least, identity, reading, since, past,
    stuck_of_not_claimable least.unfinished (taken first least)⟩

/-- The worker completes what it holds, or is late. -/
theorem Worker.completes_alone (worker : Worker EventId)
    {next : Int → OutboxStore EventId → Prop} {grants : List (Grant EventId)}
    (distinct : (grants.map fun grant => grant.data.eventId).Nodup)
    (owned : ∀ grant ∈ grants, grant.OwnedBy worker.owner)
    (held : ∀ grant ∈ grants, worker.outbox.Visible rows grant.data ∧
      rows.state worker.outbox.key grant.data.eventId = some grant.row)
    (continues : ∀ later after, worker.outbox.Finished rows after
      (grants.map fun grant => grant.data.eventId) → next later after) :
    worker.Completes released next grants instant rows := by
  induction grants generalizing instant rows with
  | nil =>
      exact continues instant rows
        ⟨fun _ _ _ => rfl, fun _ _ => rfl, fun _ absent => by cases absent⟩
  | cons grant rest induction =>
      intro begun now _ starts
      rw [List.map_cons, List.nodup_cons] at distinct
      obtain ⟨⟨lease, leased, owner⟩, owned⟩ := List.forall_mem_cons.mp owned
      obtain ⟨⟨visible, present⟩, held⟩ := List.forall_mem_cons.mp held
      refine ((alone_complete visible present leased owner (worker.marked grant.data)
        starts).mono ?_ fun _ _ late => ⟨lease, leased, late⟩).ends
      intro _ later workspace first
      refine induction distinct.2 owned ?_ fun last after rest =>
        continues last after (first.cons rest distinct.1)
      intro other member
      have apart : other.data.eventId ∉ [grant.data.eventId] := fun same =>
        distinct.1 (List.mem_singleton.mp same ▸ List.mem_map_of_mem member)
      obtain ⟨shown, taken⟩ := held other member
      exact ⟨first.visible.mpr shown, (first.others _ apart).trans taken⟩

/-- What holds after every claim that runs alone holds after the worker's. -/
theorem Worker.claims_alone (worker : Worker EventId)
    {next : List (Grant EventId) → Int → Int → OutboxStore EventId → Prop}
    (finite : (worker.outbox.matching rows).Finite)
    (fits : worker.outbox.Fits released worker.limit.toNat rows)
    (continues : ∀ grants begun later after,
      Claimed worker.outbox worker.owner rows after grants begun later →
        next grants begun later after) :
    worker.Claims released next instant rows := by
  intro begun now _ starts
  refine ((alone_claim worker.named worker.limited worker.positive finite fits
    starts).mono ?_ fun _ _ => id).ends
  rintro outcome later workspace ⟨claim, rfl, claimed⟩
  exact ⟨claim, rfl, continues _ _ _ _ claimed⟩

theorem Worker.drains_from (worker : Worker EventId) (rounds : Nat)
    (works : worker.outbox.Works before rows) (finite : (worker.outbox.matching rows).Finite)
    (fits : worker.outbox.Fits released worker.limit.toNat rows)
    (few : (worker.outbox.unfinished rows).ncard ≤ rounds) :
    worker.DrainsWithin released (worker.outbox.Drained before) rounds instant rows := by
  -- Each round of grants leaves fewer unfinished events for the rounds after it.
  induction rounds generalizing instant rows with
  | zero =>
      refine worker.claims_alone finite fits fun grants begun later after claimed => ?_
      have empty : worker.outbox.unfinished rows = ∅ :=
        (Set.ncard_eq_zero (worker.outbox.unfinished_finite finite)).mp (Nat.le_zero.mp few)
      have none : grants = [] := List.eq_nil_iff_forall_not_mem.mpr fun grant member => by
        have unfinished := claimed.unfinished grant member
        rw [empty] at unfinished
        exact unfinished
      rw [none] at claimed
      exact ⟨none, claimed.drained works finite⟩
  | succ rounds induction =>
      refine worker.claims_alone finite fits fun grants begun later after claimed =>
        ⟨?_, fun some => ?_⟩
      · rintro rfl
        exact claimed.drained works finite
      · obtain ⟨grant, member⟩ := List.exists_mem_of_ne_nil _ some
        refine worker.completes_alone claimed.distinct claimed.owned claimed.held
          fun last after finished => ?_
        have done := claimed.finished finished
        have fewer := done.unfinished_lt finite (claimed.unfinished grant member)
          (List.mem_map_of_mem member)
        exact induction (works.finished done) (done.matching ▸ finite) (done.fits fits) (by omega)

/-- A worker that is alone drains an outbox in as many rounds as it has
unfinished events, unless it is late for one of its leases. -/
theorem outbox_drains (worker : Worker EventId) (released : ReleasedOutboxData EventId)
    (rows : OutboxStore EventId) (instant : Int) (finite : (worker.outbox.matching rows).Finite)
    (fits : worker.outbox.Fits released worker.limit.toNat rows) :
    worker.DrainsWithin released (worker.outbox.Drained rows)
      (worker.outbox.unfinished rows).ncard instant rows :=
  worker.drains_from _ (.refl _ rows) finite fits le_rfl

end Runs

/-! ## The sample outbox -/

def sampleWorker : Worker Nat where
  outbox := sampleOutbox
  owner := "worker"
  limit := 1
  duration := 10
  fingerprint _ :=
    "sha256:0000000000000000000000000000000000000000000000000000000000000000"
  named := by decide
  limited := by decide
  positive := by decide
  marked _ := by decide

theorem outbox_drains_sample :
    sampleWorker.DrainsWithin sampleReleased
      (sampleWorker.outbox.Drained (sampleRows none))
      (sampleWorker.outbox.unfinished (sampleRows none)).ncard 0 (sampleRows none) := by
  refine outbox_drains sampleWorker sampleReleased (sampleRows none) 0 ?_ ?_
  · exact (List.finite_toSet [OutboxKey.intent sampleOutbox.scope sampleOutbox.resource 7]).subset
      fun key wanted => (sample_wanted key).mpr wanted
  · intro batch _ _ _
    have small : (batch.map sampleReleased.jsonSize).sum = 0 :=
      List.sum_eq_zero fun size member => by
        obtain ⟨_, _, rfl⟩ := List.mem_map.mp member
        rfl
    rw [small]
    exact Nat.zero_le _

end MeridianPostgreSQL.Projection
