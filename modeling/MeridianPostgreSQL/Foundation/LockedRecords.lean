import MeridianPostgreSQL.Foundation.VersionedRecords

/-! # Locked records

One record that transactions write in turns: the first write of a transaction
locks the record until the transaction ends. -/

namespace MeridianPostgreSQL.VersionedRecords

variable {Client Operation Contents : Type}

/-- What a transaction that holds the lock has made of the record, the latest
state first. -/
structure Pending (Client Contents : Type) where
  client : Client
  states : List (Option (Versioned Contents))
  current : Option (Versioned Contents)

/-- The record, with the states that committed writes left it in. -/
structure Slot (Client Contents : Type) where
  committed : Option (Versioned Contents)
  past : List (Option (Versioned Contents))
  pending : Option (Pending Client Contents)

inductive Event (Client Operation : Type) where
  | write (client : Client) (operation : Operation)
  | commit (client : Client)
  | abort (client : Client)

namespace Slot

variable [DecidableEq Client]

def HeldBy (slot : Slot Client Contents) (client : Client) : Prop :=
  ∃ pending, slot.pending = some pending ∧ pending.client = client

/-- A transaction sees what it has written itself. -/
def visible (slot : Slot Client Contents) (client : Client) : Option (Versioned Contents) :=
  match slot.pending with
  | some pending => if pending.client = client then pending.current else slot.committed
  | none => slot.committed

/-- The states that a transaction has written. -/
def unsaved (slot : Slot Client Contents) (client : Client) :
    List (Option (Versioned Contents)) :=
  match slot.pending with
  | some pending => if pending.client = client then pending.states else []
  | none => []

/-- The states that led to what a transaction sees. -/
def statesOf (slot : Slot Client Contents) (client : Client) :
    List (Option (Versioned Contents)) :=
  slot.unsaved client ++ slot.past

def written (slot : Slot Client Contents) (client : Client)
    (next : Option (Versioned Contents)) : Slot Client Contents :=
  { slot with pending := some ⟨client, next :: slot.unsaved client, next⟩ }

def commit (slot : Slot Client Contents) (client : Client) : Slot Client Contents :=
  match slot.pending with
  | some pending =>
      if pending.client = client then ⟨pending.current, pending.states ++ slot.past, none⟩
      else slot
  | none => slot

def abort (slot : Slot Client Contents) (client : Client) : Slot Client Contents :=
  match slot.pending with
  | some pending => if pending.client = client then { slot with pending := none } else slot
  | none => slot

/-- The lock is free, or the client's own. -/
def Free (slot : Slot Client Contents) (client : Client) : Prop :=
  ∀ pending, slot.pending = some pending → pending.client = client

end Slot

section Runs

variable [DecidableEq Client]
  (effect : Operation → Option (Versioned Contents) → Option (Versioned Contents) → Prop)

/-- A write takes effect on the state it finds under the lock, or it does
nothing. -/
inductive Move : Slot Client Contents → Event Client Operation → Slot Client Contents → Prop
  | write {slot client operation next} (free : slot.Free client)
      (acts : effect operation (slot.visible client) next) :
      Move slot (.write client operation) (slot.written client next)
  | pass {slot client operation} : Move slot (.write client operation) slot
  | commit {slot client} : Move slot (.commit client) (slot.commit client)
  | abort {slot client} : Move slot (.abort client) (slot.abort client)

inductive Moves : Slot Client Contents → List (Event Client Operation) →
    Slot Client Contents → Prop
  | nil {slot} : Moves slot [] slot
  | cons {slot event middle events next} (move : Move effect slot event middle)
      (rest : Moves middle events next) : Moves slot (event :: events) next

end Runs

/-- Whether the transaction that a client is in is rolled back. -/
def rolledBack [DecidableEq Client] (client : Client) : List (Event Client Operation) → Bool
  | [] => false
  | .write _ _ :: events => rolledBack client events
  | .commit other :: events => other ≠ client && rolledBack client events
  | .abort other :: events => other = client || rolledBack client events

/-! ## What a lock keeps -/

namespace Slot

variable [DecidableEq Client] {slot : Slot Client Contents} {client other : Client}

@[simp] theorem visible_unlocked (committed : Option (Versioned Contents))
    (past : List (Option (Versioned Contents))) :
    visible (⟨committed, past, none⟩ : Slot Client Contents) client = committed := rfl

@[simp] theorem unsaved_unlocked (committed : Option (Versioned Contents))
    (past : List (Option (Versioned Contents))) :
    unsaved (⟨committed, past, none⟩ : Slot Client Contents) client = [] := rfl

@[simp] theorem visible_written (next : Option (Versioned Contents)) :
    (slot.written client next).visible client = next := by
  simp [written, visible]

@[simp] theorem unsaved_written (next : Option (Versioned Contents)) :
    (slot.written client next).unsaved client = next :: slot.unsaved client := by
  simp [written, unsaved]

@[simp] theorem statesOf_written (next : Option (Versioned Contents)) :
    (slot.written client next).statesOf client = next :: slot.statesOf client := by
  rw [statesOf, unsaved_written]
  rfl

theorem visible_of_unheld (free : ¬ slot.HeldBy client) : slot.visible client = slot.committed := by
  unfold visible
  split
  · rename_i pending held
    rw [if_neg fun same => free ⟨pending, held, same⟩]
  · rfl

theorem unsaved_of_unheld (free : ¬ slot.HeldBy client) : slot.unsaved client = [] := by
  unfold unsaved
  split
  · rename_i pending held
    rw [if_neg fun same => free ⟨pending, held, same⟩]
  · rfl

theorem heldBy_written (next : Option (Versioned Contents)) :
    (slot.written client next).HeldBy client := ⟨_, rfl, rfl⟩

theorem not_heldBy_written (different : other ≠ client) (next : Option (Versioned Contents)) :
    ¬ (slot.written client next).HeldBy other := by
  rintro ⟨pending, held, same⟩
  cases held
  exact different same.symm

theorem commit_of_held (held : slot.HeldBy client) :
    slot.commit client = ⟨slot.visible client, slot.statesOf client, none⟩ := by
  rcases held with ⟨pending, held, same⟩
  simp [commit, visible, statesOf, unsaved, held, same]

theorem commit_of_unheld (free : ¬ slot.HeldBy client) : slot.commit client = slot := by
  unfold commit
  split
  · rename_i pending held
    rw [if_neg fun same => free ⟨pending, held, same⟩]
  · rfl

theorem abort_of_held (held : slot.HeldBy client) :
    slot.abort client = ⟨slot.committed, slot.past, none⟩ := by
  rcases held with ⟨pending, held, same⟩
  simp [abort, held, same]

theorem abort_of_unheld (free : ¬ slot.HeldBy client) : slot.abort client = slot := by
  unfold abort
  split
  · rename_i pending held
    rw [if_neg fun same => free ⟨pending, held, same⟩]
  · rfl

omit [DecidableEq Client] in
/-- Only one client holds the lock. -/
theorem HeldBy.unique (held : slot.HeldBy client) (also : slot.HeldBy other) : client = other := by
  rcases held with ⟨pending, first, rfl⟩
  rcases also with ⟨same, second, rfl⟩
  cases first.symm.trans second
  rfl

/-- What a client sees has come from what is committed. -/
def Sound (slot : Slot Client Contents) : Prop :=
  ∀ client, Since slot.committed (slot.unsaved client) (slot.visible client)

theorem sound_unlocked (committed : Option (Versioned Contents))
    (past : List (Option (Versioned Contents))) :
    Sound (⟨committed, past, none⟩ : Slot Client Contents) := fun _ => .start

theorem Sound.written (sound : slot.Sound) {next : Option (Versioned Contents)}
    (step : Step (slot.visible client) next) : (slot.written client next).Sound := by
  intro other
  by_cases same : other = client
  · subst other
    rw [visible_written, unsaved_written]
    exact .step (sound client) step
  · have free : ¬ (slot.written client next).HeldBy other := not_heldBy_written same next
    rw [visible_of_unheld free, unsaved_of_unheld free]
    exact .start

theorem Sound.commit (sound : slot.Sound) : (slot.commit client).Sound := by
  by_cases held : slot.HeldBy client
  · rw [commit_of_held held]
    exact sound_unlocked _ _
  · rw [commit_of_unheld held]
    exact sound

theorem Sound.abort (sound : slot.Sound) : (slot.abort client).Sound := by
  by_cases held : slot.HeldBy client
  · rw [abort_of_held held]
    exact sound_unlocked _ _
  · rw [abort_of_unheld held]
    exact sound

end Slot

/-- States that have followed a record since some were seen. -/
def Follows (record : Versioned Contents) (seen states : List (Option (Versioned Contents)))
    (current : Option (Versioned Contents)) : Prop :=
  ∃ between, states = between ++ seen ∧ Since (some record) between current

theorem Follows.since {record : Versioned Contents}
    {seen states later : List (Option (Versioned Contents))}
    {current next : Option (Versioned Contents)} (follows : Follows record seen states current)
    (since : Since current later next) : Follows record seen (later ++ states) next := by
  rcases follows with ⟨between, rfl, first⟩
  exact ⟨later ++ between, (List.append_assoc _ _ _).symm, first.trans since⟩

section Locked

variable [DecidableEq Client] {slot next : Slot Client Contents} {client : Client}
  {event : Event Client Operation} {events : List (Event Client Operation)}
  {effect : Operation → Option (Versioned Contents) → Option (Versioned Contents) → Prop}
  {record : Versioned Contents} {seen : List (Option (Versioned Contents))}
  (disciplined : ∀ {operation before after}, effect operation before after → Step before after)

include disciplined

theorem Move.sound (move : Move effect slot event next) (sound : slot.Sound) : next.Sound := by
  cases move with
  | write free acts => exact sound.written (disciplined acts)
  | pass => exact sound
  | commit => exact sound.commit
  | abort => exact sound.abort

theorem Moves.sound (moves : Moves effect slot events next) (sound : slot.Sound) :
    next.Sound := by
  induction moves with
  | nil => exact sound
  | cons move _ induction => exact induction (move.sound disciplined sound)

omit disciplined in
/-- What is committed stays behind what was committed when it was seen. -/
theorem Move.follows_committed (move : Move effect slot event next) (sound : slot.Sound)
    (follows : Follows record seen slot.past slot.committed) :
    Follows record seen next.past next.committed := by
  cases move with
  | write => exact follows
  | pass => exact follows
  | @commit other =>
      by_cases held : slot.HeldBy other
      · rw [Slot.commit_of_held held]
        exact follows.since (sound other)
      · rw [Slot.commit_of_unheld held]
        exact follows
  | @abort other =>
      by_cases held : slot.HeldBy other
      · rw [Slot.abort_of_held held]
        exact follows
      · rw [Slot.abort_of_unheld held]
        exact follows

theorem Moves.follows_committed (moves : Moves effect slot events next) (sound : slot.Sound)
    (follows : Follows record seen slot.past slot.committed) :
    Follows record seen next.past next.committed := by
  induction moves with
  | nil => exact follows
  | cons move _ induction =>
      exact induction (move.sound disciplined sound) (move.follows_committed sound follows)

/-- What the holder of the lock has seen stays behind what it sees, unless it
rolls back. -/
theorem Moves.follows_held (moves : Moves effect slot events next) (sound : slot.Sound)
    (held : slot.HeldBy client) (kept : rolledBack client events = false)
    (follows : Follows record seen (slot.statesOf client) (slot.visible client)) :
    Follows record seen (next.statesOf client) (next.visible client) := by
  induction moves with
  | nil => exact follows
  | cons move rest induction =>
      have middleSound := move.sound disciplined sound
      cases move with
      | @write other operation state free acts =>
          rcases held with ⟨pending, locked, rfl⟩
          cases free pending locked
          apply induction middleSound (Slot.heldBy_written _) kept
          rw [Slot.statesOf_written, Slot.visible_written]
          exact follows.since (.step .start (disciplined acts))
      | pass => exact induction middleSound held kept follows
      | @commit other =>
          by_cases same : other = client
          · subst other
            rw [Slot.commit_of_held held] at rest middleSound
            have committed := rest.follows_committed disciplined middleSound follows
            exact committed.since (rest.sound disciplined middleSound client)
          · have unheld : ¬ _ := fun also => same (Slot.HeldBy.unique also held)
            rw [Slot.commit_of_unheld unheld] at induction middleSound
            simp only [rolledBack, ne_eq, same, not_false_eq_true, decide_true,
              Bool.true_and] at kept
            exact induction middleSound held kept follows
      | @abort other =>
          simp only [rolledBack, Bool.or_eq_false_iff, decide_eq_false_iff_not] at kept
          have unheld : ¬ _ := fun also => kept.1 (Slot.HeldBy.unique also held)
          rw [Slot.abort_of_unheld unheld] at induction middleSound
          exact induction middleSound held kept.2 follows

/-- Whatever a client has seen stays behind what it sees later, unless that
was its own and it has rolled back. -/
theorem Moves.follows (moves : Moves effect slot events next) (sound : slot.Sound)
    (visible : slot.visible client = some record)
    (kept : slot.HeldBy client → rolledBack client events = false) :
    Follows record (slot.statesOf client) (next.statesOf client) (next.visible client) := by
  by_cases held : slot.HeldBy client
  · apply moves.follows_held disciplined sound held (kept held)
    exact ⟨[], rfl, by rw [visible]; exact .start⟩
  · have start : Follows record (slot.statesOf client) slot.past slot.committed := by
      rw [Slot.statesOf, Slot.unsaved_of_unheld held, ← Slot.visible_of_unheld held, visible]
      exact ⟨[], rfl, .start⟩
    have committed := moves.follows_committed disciplined sound start
    exact committed.since (moves.sound disciplined sound client)

/-- If a client sees the version again that it has seen, then no write between
left another state, unless one removed the record. -/
theorem Moves.unchanged {latest : Versioned Contents} (moves : Moves effect slot events next)
    (sound : slot.Sound) (visible : slot.visible client = some record)
    (kept : slot.HeldBy client → rolledBack client events = false)
    (again : next.visible client = some latest) (same : latest.version = record.version) :
    ∃ between, next.statesOf client = between ++ slot.statesOf client ∧
      (none ∉ between → ∀ state ∈ between, state = some record) := by
  rcases moves.follows disciplined sound visible kept with ⟨between, states, since⟩
  rw [again] at since
  exact ⟨between, states, fun present => since.unchanged present same⟩

end Locked

end MeridianPostgreSQL.VersionedRecords
