import MeridianPostgreSQL.Foundation.OrderedLocks
import MeridianPostgreSQL.Projection.IntentGuards

/-! # Outbox transactions complete

A claim takes intents that are free and then writes the states that their locks
guard. Complete and release wait for one intent, and complete for a checkpoint
after it. So no workers, whatever they call, ever wait for one another in a
circle. -/

namespace MeridianPostgreSQL.Projection

open ReadCommitted

variable {EventId : Type}

/-! ## The order of the rows -/

/-- Intents come by their event, checkpoints after every intent, and a state row
is guarded by its intent. -/
def outboxOrder : LockOrder (OutboxKey EventId) (WithTop EventId) where
  rank
    | .intent _ _ event => event
    | _ => ⊤
  guard := intentGuard

/-- The intents of an insert are sorted by event id. -/
def OutboxCall.Sorted [LT EventId] (call : OutboxCall EventId) : Prop :=
  match call with
  | .insert intents => (intents.map fun intent => intent.2.2.eventId).Pairwise (· < ·)
  | _ => True

variable [LinearOrder EventId] {locks : Set (OutboxKey EventId)}
  {saved : List (Set (OutboxKey EventId))}

section Statements

variable {post : Int → Set (OutboxKey EventId) → List (Set (OutboxKey EventId)) → Prop}

theorem orderly_currentTime (now : Option CallerClock)
    (holds : ∀ reading, post reading locks saved) :
    (currentTime now : OutboxProgram EventId Int).Orderly outboxOrder post locks saved := by
  cases now with
  | none => exact holds
  | some caller =>
      unfold currentTime
      dsimp only
      split
      · exact holds caller.instant
      · trivial

theorem orderly_finalTime (now : Option CallerClock)
    (holds : ∀ reading, post reading locks saved) :
    (finalTime now : OutboxProgram EventId Int).Orderly outboxOrder post locks saved := by
  cases now with
  | none => exact holds
  | some caller => exact holds caller.instant

end Statements

/-- A state is written under the lock of its intent. -/
theorem orderly_writeState {key : ProjectionKey} {event : EventId}
    (locked : .intent key.scope key.resource event ∈ locks)
    (change : Option StateRow → Change StateRow)
    {post : Change StateRow → Set (OutboxKey EventId) → List (Set (OutboxKey EventId)) → Prop}
    (kept : post .keep locks saved)
    (changed : ∀ made, post made (insert (.state key event) locks) saved) :
    (writeState key event change).Orderly outboxOrder post locks saved := by
  refine ⟨.guarded rfl locked, fun row => ?_⟩
  cases change row with
  | keep => exact kept
  | put made => exact changed _
  | delete => exact changed _

/-! ## Complete and release -/

/-- A loaded event has its intent locked, and nothing else. -/
theorem orderly_load (outbox : Outbox) (event : EventId) :
    (outbox.load event).Orderly outboxOrder
      (fun _ after later => after = {.intent outbox.scope outbox.resource event} ∧ later = saved)
      ∅ saved := by
  unfold Outbox.load
  rw [Program.orderly_bind]
  intro snapshot
  dsimp only [Program.Orderly]
  split
  · trivial
  · rw [Program.orderly_bind]
    refine ⟨.first rfl, trivial, fun row => ?_⟩
    dsimp only [Program.Orderly]
    split
    · rw [Program.orderly_bind]
      intro store
      exact ⟨insert_empty_eq _, rfl⟩
    · trivial

theorem orderly_leased (outbox : Outbox) (event : EventId) (owner : String)
    (now : Option CallerClock) :
    (outbox.leased event owner now).Orderly outboxOrder
      (fun _ after later => after = {.intent outbox.scope outbox.resource event} ∧ later = saved)
      ∅ saved := by
  unfold Outbox.leased
  rw [Program.orderly_bind]
  refine (orderly_load outbox event).mono ?_
  rintro ⟨data, state⟩ after later held
  rw [Program.orderly_bind]
  refine orderly_currentTime now fun reading => ?_
  dsimp only
  split
  · trivial
  · split
    · trivial
    · exact held

theorem orderly_complete (outbox : Outbox) (released : ReleasedOutboxData EventId)
    (event : EventId) (owner : String) (acknowledged : Json) (targetFingerprint : String)
    (now : Option CallerClock) :
    (outbox.complete released event owner acknowledged targetFingerprint now).Orderly
      outboxOrder (fun _ _ _ => True) ∅ saved := by
  unfold Outbox.complete
  split
  · trivial
  rw [Program.orderly_bind]
  refine (orderly_leased outbox event owner now).mono ?_
  rintro ⟨data, row, current⟩ after later ⟨rfl, rfl⟩
  dsimp only
  split
  · trivial
  rw [Program.orderly_bind]
  intro store
  dsimp only [Program.Orderly]
  rw [Program.orderly_bind]
  have admits : outboxOrder.Admits {.intent outbox.scope outbox.resource event}
      (.checkpoint outbox.key (released.partitionKey data)) := by
    refine ⟨fun lock absent => (by cases absent), ?_⟩
    rintro _ _ held rfl _
    exact WithTop.coe_lt_top event
  refine ⟨admits, fun stored => ?_⟩
  cases advanceCheckpoint _ _ stored with
  | keep | delete => trivial
  | put checkpoint =>
      dsimp only [Program.Orderly]
      rw [Program.orderly_bind]
      refine orderly_finalTime now fun reading => ?_
      rw [Program.orderly_bind]
      refine orderly_writeState (Set.mem_insert_of_mem _ (Set.mem_singleton _)) _ trivial fun made => ?_
      cases made <;> trivial

theorem orderly_release (outbox : Outbox) (event : EventId) (owner : String) (code : String)
    (retryable : Bool) (now : Option CallerClock) :
    (outbox.release event owner code retryable now).Orderly outboxOrder
      (fun _ _ _ => True) ∅ saved := by
  unfold Outbox.release
  rw [Program.orderly_bind]
  refine (orderly_leased outbox event owner now).mono ?_
  rintro ⟨data, row, current⟩ after later ⟨rfl, rfl⟩
  rw [Program.orderly_bind]
  refine orderly_finalTime now fun reading => ?_
  rw [Program.orderly_bind]
  refine orderly_writeState (Set.mem_singleton _) _ trivial fun made => ?_
  cases made <;> trivial

/-! ## Claims -/

/-- The intents of the batch are locked. -/
def Locked (outbox : Outbox) (rows : List (OutboxData EventId))
    (locks : Set (OutboxKey EventId)) : Prop :=
  ∀ data ∈ rows, .intent outbox.scope outbox.resource data.eventId ∈ locks

theorem orderly_lockBatch (outbox : Outbox) (batch : List (OutboxData EventId)) (limit : Nat) :
    (outbox.lockBatch batch limit).Orderly outboxOrder
      (fun rows after _ => Locked outbox rows after ∧ locks ⊆ after) locks saved := by
  induction batch generalizing limit locks with
  | nil => exact ⟨fun data absent => absurd absent List.not_mem_nil, subset_rfl⟩
  | cons data rest induction =>
      cases limit with
      | zero => exact ⟨fun data absent => absurd absent List.not_mem_nil, subset_rfl⟩
      | succ limit =>
          unfold Outbox.lockBatch
          rw [Program.orderly_bind]
          refine ⟨fun lock absent => (by cases absent), induction (limit + 1), ?_⟩
          dsimp only [Program.Orderly]
          rw [if_pos rfl, Program.orderly_bind]
          refine (induction limit).mono ?_
          rintro rows after later ⟨locked, grown⟩
          refine ⟨?_, Set.Subset.trans (Set.subset_insert _ _) grown⟩
          intro other member
          rcases List.mem_cons.mp member with rfl | member
          · exact grown (Set.mem_insert _ _)
          · exact locked other member

theorem orderly_leaseRows (outbox : Outbox) (released : ReleasedOutboxData EventId)
    (owner : String) (duration : Int) (positive : 0 < duration) (now : Option CallerClock)
    (rows : List (OutboxData EventId)) (bytes : Nat) (locked : Locked outbox rows locks) :
    (outbox.leaseRows released owner duration positive now rows bytes).Orderly outboxOrder
      (fun _ _ _ => True) locks saved := by
  induction rows generalizing bytes locks with
  | nil => trivial
  | cons data rest induction =>
      unfold Outbox.leaseRows
      dsimp only
      split
      · trivial
      rw [Program.orderly_bind]
      refine orderly_currentTime now fun current => ?_
      rw [Program.orderly_bind]
      refine orderly_writeState (locked data (.head _)) _ ?_ fun made => ?_
      · rw [Program.orderly_bind]
        refine (induction _ fun other member => locked other (.tail _ member)).mono ?_
        exact fun _ _ _ _ => trivial
      · rw [Program.orderly_bind]
        refine (induction _ fun other member =>
          Set.mem_insert_of_mem _ (locked other (.tail _ member))).mono ?_
        cases made <;> exact fun _ _ _ _ => trivial

theorem orderly_claim (outbox : Outbox) (released : ReleasedOutboxData EventId)
    (owner : String) (limit duration : Int) (now : Option CallerClock) :
    (outbox.atomicClaim released owner limit duration now).Orderly outboxOrder
      (fun _ _ _ => True) ∅ saved := by
  unfold Outbox.atomicClaim
  split
  · trivial
  split
  · trivial
  split
  · rw [Program.orderly_bind]
    refine orderly_currentTime now fun current => ?_
    rw [Program.orderly_bind]
    refine ⟨fun store key wanted => ?_, fun store keys => ?_⟩
    · cases key with
      | intent scope resource event =>
          intro absent
          simp [Outbox.wanted, OutboxStore.intent, absent] at wanted
      | state | checkpoint => simp [Outbox.wanted] at wanted
    · dsimp only [Program.Orderly]
      rw [Program.orderly_bind]
      refine (orderly_lockBatch outbox _ _).mono ?_
      rintro rows after later ⟨locked, _⟩
      rw [Program.orderly_bind]
      refine (orderly_leaseRows outbox released owner duration (by assumption) now rows 0
        locked).mono ?_
      exact fun _ _ _ _ => trivial
  · trivial

/-! ## Intents -/

/-- Inserts wait for each intent after those that they hold. -/
theorem orderly_insertIntents (intents : List (ScopeKey × String × OutboxData EventId))
    (sorted : (intents.map fun intent => intent.2.2.eventId).Pairwise (· < ·))
    (later : ∀ intent ∈ intents, ∀ held ∈ locks, outboxOrder.guard held = none →
      outboxOrder.rank held < (intent.2.2.eventId : WithTop EventId)) :
    (insertIntents intents).Orderly outboxOrder (fun _ _ _ => True) locks saved := by
  induction intents generalizing locks with
  | nil => trivial
  | cons head rest induction =>
      rcases head with ⟨scope, resource, data⟩
      obtain ⟨least, sorted⟩ := List.pairwise_cons.mp sorted
      unfold insertIntents
      rw [Program.orderly_bind]
      refine ⟨⟨fun lock absent => (by cases absent), fun _ _ => later _ List.mem_cons_self⟩, ?_⟩
      intro row
      cases row with
      | some stored => trivial
      | none =>
          refine induction sorted ?_
          rintro intent member held (rfl | locked) unguarded
          · exact WithTop.coe_lt_coe.mpr (least _ (List.mem_map_of_mem member))
          · exact later intent (List.mem_cons_of_mem _ member) held locked unguarded

/-! ## All calls -/

theorem orderly_program (released : ReleasedOutboxData EventId) (call : OutboxCall EventId)
    (sorted : call.Sorted) :
    (call.program released).Orderly outboxOrder (fun _ _ _ => True) ∅ [] := by
  cases call with
  | insert intents =>
      exact orderly_insertIntents intents sorted fun _ _ held absent =>
        absurd absent (Set.notMem_empty held)
  | atomicClaim outbox owner limit duration now =>
      exact orderly_claim outbox released owner limit duration now
  | complete outbox event owner acknowledged targetFingerprint now =>
      exact orderly_complete outbox released event owner acknowledged targetFingerprint now
  | release outbox event owner code retryable now =>
      exact orderly_release outbox event owner code retryable now

/-- The transactions of workers, and inserts that are sorted. -/
def sortedCalls (released : ReleasedOutboxData EventId)
    (program : OutboxProgram EventId (Outcome EventId)) : Prop :=
  ∃ call : OutboxCall EventId, call.Sorted ∧ program = call.program released

/-- However the claims, completions and releases of any workers and sorted
inserts are interleaved, no transactions ever wait for one another, and every
schedule of the open ones ends with all of them committed or failed. -/
theorem outbox_completes (released : ReleasedOutboxData EventId)
    {rows : OutboxStore EventId} (finite : (stored rows).Finite)
    {server : Server (OutboxRow EventId) OutboxError (Outcome EventId)}
    (reachable : Reachable (sortedCalls released) rows server) :
    (∀ sessions, ¬ server.Deadlocked sessions) ∧ server.Completes := by
  have ordered : OrderlyPrograms outboxOrder (sortedCalls released) := by
    rintro program ⟨call, sorted, rfl⟩
    exact orderly_program released call sorted
  exact ⟨not_deadlocked ordered finite reachable, completes ordered finite reachable⟩

/-! ## A completion that waits for a claim -/

section Sample

variable {state : Option StateRow} {row : StateRow} {instant : Int}

def sampleKey : OutboxKey Nat := .intent sampleOutbox.scope sampleOutbox.resource 7

theorem sample_claim_starts (taken : leaseRow (sampleLease instant) state = .put row) :
    ∃ next, sampleOutbox.atomicClaim sampleReleased "worker" 1 10 (some ⟨instant, true⟩) =
        .scan sampleOutbox.wanted next ∧
      ∃ after, next (sampleRows state) [sampleKey] = .lockSkipLocked sampleKey after := by
  have listed : intentsOf (sampleRows state) [sampleKey] = [sampleIntent] := rfl
  have chosen : sampleOutbox.candidates (sampleRows state) [sampleIntent] instant =
      [sampleIntent] := sample_claimable taken
  unfold Outbox.atomicClaim
  rw [if_neg (by decide), if_neg (by decide), dif_pos (by decide)]
  refine ⟨_, rfl, ?_⟩
  simp only [Program.handle]
  rw [listed, chosen]
  exact ⟨_, rfl⟩

theorem sample_complete_starts : ∃ next,
    sampleOutbox.complete sampleReleased 7 "worker" .null sampleFingerprint (some ⟨instant, true⟩) =
        .read next ∧
      ∃ after, next (sampleRows state) = .lock sampleKey after := by
  unfold Outbox.complete
  rw [if_neg (by decide)]
  exact ⟨_, rfl, _, rfl⟩

theorem sample_finite : (stored (sampleRows state)).Finite := by
  refine (List.finite_toSet [sampleKey, .state sampleOutbox.key 7]).subset ?_
  rintro (⟨scope, resource, event⟩ | ⟨key, event⟩ | _) present
  · by_cases same : scope = sampleOutbox.scope ∧ resource = sampleOutbox.resource ∧ 7 = event
    · obtain ⟨rfl, rfl, rfl⟩ := same
      exact .head _
    · exact absurd (dif_neg same) present
  · by_cases same : key = sampleOutbox.key ∧ event = 7
    · obtain ⟨rfl, rfl⟩ := same
      exact .tail _ (.head _)
    · exact absurd (if_neg same) present
  · exact absurd rfl present

/-- A completion waits for the intent that a claim has locked. -/
theorem outbox_completes_waiting : ∃ server : OutboxServer Nat,
    (∃ workspace next, server.transactions 1 = some ⟨workspace, .lock sampleKey next⟩) ∧
      sampleKey ∈ server.heldByOthers 1 ∧
      (∀ sessions, ¬ server.Deadlocked sessions) ∧ server.Completes := by
  have taken : leaseRow (sampleLease 100) (some (sampleAttempt 1 Nat.one_pos 0)) =
      .put (sampleAttempt 2 Nat.two_pos 100) := rfl
  let rows := sampleRows (some (sampleAttempt 1 Nat.one_pos 0))
  let claim : OutboxCall Nat := .atomicClaim sampleOutbox "worker" 1 10 (some ⟨100, true⟩)
  let complete : OutboxCall Nat :=
    .complete sampleOutbox 7 "worker" .null sampleFingerprint (some ⟨5, true⟩)
  obtain ⟨found, claims, claiming, locks⟩ := sample_claim_starts taken
  obtain ⟨read, completes, completing, waits⟩ :=
    @sample_complete_starts (some (sampleAttempt 1 Nat.one_pos 0)) 5
  let held : Transaction (OutboxRow Nat) OutboxError (Outcome Nat) :=
    ⟨{ Workspace.fresh with locks := insert sampleKey ∅ }, claiming true⟩
  let server : OutboxServer Nat := (Server.initial rows).withTransaction 0 (some held)
  have nobody : sampleKey ∉ (Server.initial rows : OutboxServer Nat).heldByOthers 0 := by
    rintro ⟨other, _, _, absent, _⟩
    cases absent
  have scanned : Statement rows ((Server.initial rows : OutboxServer Nat).heldByOthers 0)
      ⟨.fresh, claim.program sampleReleased⟩ ⟨.fresh, found rows [sampleKey]⟩ := by
    change Statement _ _ ⟨.fresh, sampleOutbox.atomicClaim _ _ _ _ _⟩ _
    rw [claims]
    exact .scan _ _ _ [sampleKey] (List.nodup_singleton _) sample_wanted
  have taken : Statement rows ((Server.initial rows : OutboxServer Nat).heldByOthers 0)
      ⟨.fresh, found rows [sampleKey]⟩ held := by
    rw [locks]
    exact .lockTaken _ _ _ nobody
  have locked : Reachable (sortedCalls sampleReleased) rows server :=
    .head (.begin _ 0 (claim.program sampleReleased) rfl ⟨claim, trivial, rfl⟩)
      (StepFrom.steps (Server.run_statements (.head scanned (.single taken))))
  have selected : Statement rows (server.heldByOthers 1)
      ⟨.fresh, complete.program sampleReleased⟩ ⟨.fresh, .lock sampleKey completing⟩ := by
    change Statement _ _ ⟨.fresh, sampleOutbox.complete _ _ _ _ _ _⟩ _
    rw [completes, ← waits]
    exact .read _ _
  have waiting : Reachable (sortedCalls sampleReleased) rows
      (server.withTransaction 1 (some ⟨.fresh, .lock sampleKey completing⟩)) :=
    locked.trans (.head (.begin _ 1 (complete.program sampleReleased) rfl
      ⟨complete, trivial, rfl⟩) (StepFrom.steps (Server.run_statements (.single selected))))
  exact ⟨_, ⟨_, _, rfl⟩, ⟨0, held, Nat.zero_ne_one, rfl, .inl rfl⟩,
    outbox_completes sampleReleased sample_finite waiting⟩

end Sample

end MeridianPostgreSQL.Projection
