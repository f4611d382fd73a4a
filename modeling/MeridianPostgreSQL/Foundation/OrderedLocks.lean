import Mathlib.Algebra.BigOperators.Group.Finset.Basic
import Mathlib.Logic.Hydra
import Mathlib.Data.Set.Finite.Lemmas
import MeridianPostgreSQL.Foundation.TransactionSoundness

/-! # Locks taken in order

Transactions that wait for rows only in one order of the rows never wait for
each other in a circle, so the open ones come to an end in every schedule. A
row that is only ever locked under the lock of another needs no place in the
order: whoever holds the guard does not wait for it. -/

namespace MeridianPostgreSQL.ReadCommitted

variable {Key : Type} {Row : Key → Type} {Failure Result α β : Type} {Rank : Type}

/-! ## Orders of locks -/

/-- The place of a row in the order, and the row that guards it. -/
structure LockOrder (Key Rank : Type) where
  rank : Key → Rank
  guard : Key → Option Key

namespace LockOrder

/-- The guard of a row is held. -/
def Shields (order : LockOrder Key Rank) (locks : Set Key) (key : Key) : Prop :=
  ∀ lock, order.guard key = some lock → lock ∈ locks

/-- Every guarded row is locked together with its guard. -/
def Closed (order : LockOrder Key Rank) (locks : Set Key) : Prop :=
  ∀ key ∈ locks, order.Shields locks key

/-- A row may be waited for: it is guarded by a held lock, or it comes after
every unguarded row that is held, or it is held already. -/
structure Admits [LT Rank] (order : LockOrder Key Rank) (locks : Set Key) (key : Key) :
    Prop where
  shielded : order.Shields locks key
  ordered : order.guard key = none → key ∉ locks → ∀ held ∈ locks,
    order.guard held = none → order.rank held < order.rank key

variable {order : LockOrder Key Rank} {locks : Set Key} {key : Key}

theorem Closed.empty : order.Closed ∅ :=
  fun _ absent => absurd absent (Set.notMem_empty _)

theorem Closed.insert (closed : order.Closed locks) (shielded : order.Shields locks key) :
    order.Closed (insert key locks) := by
  rintro other (rfl | member) lock guarded
  · exact .inr (shielded lock guarded)
  · exact .inr (closed other member lock guarded)

/-- Nothing is held, so any unguarded row may be waited for. -/
theorem Admits.first [LT Rank] (unguarded : order.guard key = none) :
    order.Admits ∅ key where
  shielded := by
    intro lock guarded
    rw [unguarded] at guarded
    cases guarded
  ordered := fun _ _ held absent => absurd absent (Set.notMem_empty held)

/-- A row whose guard is held may be waited for. -/
theorem Admits.guarded [LT Rank] {lock : Key} (guarded : order.guard key = some lock)
    (held : lock ∈ locks) : order.Admits locks key where
  shielded := by
    intro other found
    cases guarded.symm.trans found
    exact held
  ordered := by
    intro unguarded
    rw [unguarded] at guarded
    cases guarded

end LockOrder

/-! ## Programs -/

section Programs

variable [LT Rank]

/-- The program waits for rows in order only and scans for rows that exist,
whatever it reads. The locks of its savepoints are remembered. -/
def Program.Orderly (order : LockOrder Key Rank) (program : Program Row Failure α)
    (post : α → Set Key → List (Set Key) → Prop) (locks : Set Key)
    (saved : List (Set Key)) : Prop :=
  match program with
  | .finish result => post result locks saved
  | .fail _ => True
  | .clock next => ∀ reading, (next reading).Orderly order post locks saved
  | .refuse next => ∀ refused, (next refused).Orderly order post locks saved
  | .read next => ∀ store, (next store).Orderly order post locks saved
  | .scan wanted next => (∀ store key, wanted store key = true → store key ≠ none) ∧
      ∀ store keys, (next store keys).Orderly order post locks saved
  | .lock key next => order.Admits locks key ∧
      (next none).Orderly order post locks saved ∧
      ∀ row, (next (some row)).Orderly order post (insert key locks) saved
  | .lockSkipLocked key next => order.Shields locks key ∧
      (next false).Orderly order post locks saved ∧
      (next true).Orderly order post (insert key locks) saved
  | .modify key change next => order.Admits locks key ∧
      ∀ row, match change row with
        | .keep => (next .keep).Orderly order post locks saved
        | .put made => (next (.put made)).Orderly order post (insert key locks) saved
        | .delete => (next .delete).Orderly order post (insert key locks) saved
  | .savepoint next => next.Orderly order post locks (locks :: saved)
  | .rollbackTo next =>
      match saved with
      | [] => False
      | outer :: saved => next.Orderly order post outer saved
  | .release next =>
      match saved with
      | [] => False
      | _ :: saved => next.Orderly order post locks saved

variable {order : LockOrder Key Rank} {locks : Set Key} {saved : List (Set Key)}

theorem Program.orderly_bind {program : Program Row Failure α}
    {next : α → Program Row Failure β} {post : β → Set Key → List (Set Key) → Prop} :
    (program >>= next).Orderly order post locks saved ↔
      program.Orderly order (fun result => (next result).Orderly order post) locks
        saved := by
  change (program.handle next .fail).Orderly order post locks saved ↔ _
  induction program generalizing locks saved with
  | finish | fail => exact Iff.rfl
  | clock next induction | refuse next induction | read next induction =>
      exact forall_congr' fun seen => induction seen
  | scan wanted next induction =>
      exact and_congr_right fun _ => forall₂_congr fun store keys => induction store keys
  | lock key next induction =>
      exact and_congr_right fun _ => and_congr (induction none)
        (forall_congr' fun row => induction (some row))
  | lockSkipLocked key next induction =>
      exact and_congr_right fun _ => and_congr (induction false) (induction true)
  | modify key change next induction =>
      refine and_congr_right fun _ => forall_congr' fun row => ?_
      cases change row <;> exact induction _
  | savepoint next induction => exact induction
  | rollbackTo next induction | release next induction =>
      cases saved with
      | nil => exact Iff.rfl
      | cons outer saved => exact induction

theorem Program.Orderly.mono {program : Program Row Failure α}
    {post post' : α → Set Key → List (Set Key) → Prop}
    (orderly : program.Orderly order post locks saved)
    (finished : ∀ result locks saved, post result locks saved → post' result locks saved) :
    program.Orderly order post' locks saved := by
  induction program generalizing locks saved with
  | finish result => exact finished result locks saved orderly
  | fail failure => trivial
  | clock next induction | refuse next induction | read next induction =>
      exact fun seen => induction seen (orderly seen)
  | scan wanted next induction =>
      exact ⟨orderly.1, fun store keys => induction store keys (orderly.2 store keys)⟩
  | lock key next induction =>
      exact ⟨orderly.1, induction none orderly.2.1,
        fun row => induction (some row) (orderly.2.2 row)⟩
  | lockSkipLocked key next induction =>
      exact ⟨orderly.1, induction false orderly.2.1, induction true orderly.2.2⟩
  | modify key change next induction =>
      refine ⟨orderly.1, fun row => ?_⟩
      have later := orderly.2 row
      revert later
      cases change row <;> exact induction _
  | savepoint next induction => exact induction orderly
  | rollbackTo next induction | release next induction =>
      cases saved with
      | nil => exact orderly
      | cons outer saved => exact induction orderly

end Programs

/-! ## Open transactions -/

/-- The next statement waits until no other transaction holds the row. -/
def Program.Wants (program : Program Row Failure α) (wanted : Key) : Prop :=
  match program with
  | .lock key _ => key = wanted
  | .modify key _ _ => key = wanted
  | _ => False

/-- The keys of the rows that there are. -/
def stored (store : Store Row) : Set Key :=
  { key | store key ≠ none }

/-- The keys that a transaction has written. -/
def written (writes : Writes Row) : Set Key :=
  { key | writes key ≠ none }

theorem stored_overlay (writes : Writes Row) (store : Store Row) :
    stored (overlay writes store) ⊆ written writes ∪ stored store := by
  intro key present
  by_cases touched : writes key = none
  · refine .inr fun absent => present ?_
    rw [overlay_of_unwritten touched, absent]
  · exact .inl touched

theorem written_update [DecidableEq Key] (writes : Writes Row) (key : Key)
    (row : Option (Row key)) :
    written (Function.update writes key (some row)) ⊆ insert key (written writes) := by
  intro other touched
  by_cases same : other = key
  · exact .inl same
  · refine .inr fun absent => touched ?_
    rw [Function.update_of_ne same, absent]

/-- What an open transaction keeps: the rest of its program is orderly, guarded
rows are locked with their guards, and it has written finitely many rows. -/
structure Transaction.Orderly [LT Rank] (order : LockOrder Key Rank)
    (transaction : Transaction Row Failure Result) : Prop where
  program : transaction.program.Orderly order (fun _ _ _ => True)
    transaction.workspace.locks (transaction.workspace.saved.map Prod.snd)
  closed : order.Closed transaction.workspace.locks
  finite : (written transaction.workspace.writes).Finite
  saved : ∀ entry ∈ transaction.workspace.saved,
    order.Closed entry.2 ∧ (written entry.1).Finite

namespace Transaction.Orderly

variable [LT Rank] [DecidableEq Key] {order : LockOrder Key Rank} {rows : Store Row}
  {held : Set Key} {before after : Transaction Row Failure Result}

/-- One statement keeps a transaction orderly. -/
theorem statement (orderly : before.Orderly order) (sent : Statement rows held before after) :
    after.Orderly order := by
  obtain ⟨program, closed, finite, saved⟩ := orderly
  cases sent with
  | clock workspace next reading => exact ⟨program reading, closed, finite, saved⟩
  | refuse workspace next refused => exact ⟨program refused, closed, finite, saved⟩
  | read workspace next => exact ⟨program _, closed, finite, saved⟩
  | scan workspace wanted next keys nodup complete =>
      exact ⟨program.2 _ keys, closed, finite, saved⟩
  | lock workspace key next available =>
      cases overlay workspace.writes rows key with
      | none => exact ⟨program.2.1, closed, finite, saved⟩
      | some row =>
          exact ⟨program.2.2 row, closed.insert program.1.shielded, finite, saved⟩
  | lockSkipped workspace key next taken => exact ⟨program.2.1, closed, finite, saved⟩
  | lockTaken workspace key next available =>
      exact ⟨program.2.2, closed.insert program.1, finite, saved⟩
  | modify workspace key change next available =>
      have later := program.2 (overlay workspace.writes rows key)
      have grown : ∀ row : Option (Row key),
          (written (Function.update workspace.writes key (some row))).Finite :=
        fun row => (finite.insert key).subset (written_update _ _ _)
      revert later
      cases change (overlay workspace.writes rows key) with
      | keep => exact fun later => ⟨later, closed, finite, saved⟩
      | put row =>
          exact fun later => ⟨later, closed.insert program.1.shielded, grown _, saved⟩
      | delete =>
          exact fun later => ⟨later, closed.insert program.1.shielded, grown _, saved⟩
  | savepoint workspace next =>
      refine ⟨program, closed, finite, fun entry member => ?_⟩
      rcases List.mem_cons.mp member with rfl | member
      · exact ⟨closed, finite⟩
      · exact saved entry member
  | rollbackTo workspace writes locks rest next outer =>
      rw [outer] at saved
      have returned := saved _ List.mem_cons_self
      simp only [Program.Orderly, outer, List.map_cons] at program
      exact ⟨program, returned.1, returned.2,
        fun entry member => saved entry (List.mem_cons_of_mem _ member)⟩
  | release workspace entry rest next outer =>
      rw [outer] at saved
      simp only [Program.Orderly, outer, List.map_cons] at program
      exact ⟨program, closed, finite,
        fun entry member => saved entry (List.mem_cons_of_mem _ member)⟩

omit [DecidableEq Key] in
/-- What an orderly transaction waits for comes after what it holds. -/
theorem admits (orderly : before.Orderly order) {key : Key} (wants : before.program.Wants key) :
    order.Admits before.workspace.locks key := by
  obtain ⟨workspace, program⟩ := before
  have ordered := orderly.program
  cases program <;> cases wants <;> exact ordered.1

/-- An orderly transaction has ended, can send its next statement, or waits for
a row that another transaction has locked. -/
theorem proceeds (orderly : before.Orderly order) (finite : (stored rows).Finite)
    (held : Set Key) :
    (∃ result, before.program = .finish result) ∨
      (∃ failure, before.program = .fail failure) ∨
      (∃ next, Statement rows held before next) ∨
      ∃ key, before.program.Wants key ∧ key ∈ held := by
  obtain ⟨workspace, program⟩ := before
  have ordered := orderly.program
  cases program with
  | finish result => exact .inl ⟨result, rfl⟩
  | fail failure => exact .inr (.inl ⟨failure, rfl⟩)
  | clock next => exact .inr (.inr (.inl ⟨_, .clock workspace next 0⟩))
  | refuse next => exact .inr (.inr (.inl ⟨_, .refuse workspace next false⟩))
  | read next => exact .inr (.inr (.inl ⟨_, .read workspace next⟩))
  | scan wanted next =>
      have found : { key | wanted (overlay workspace.writes rows) key = true }.Finite := by
        apply (orderly.finite.union finite).subset
        exact fun key selected => stored_overlay _ _ (ordered.1 _ key selected)
      refine .inr (.inr (.inl ⟨_, .scan workspace wanted next found.toFinset.toList
        (Finset.nodup_toList _) fun key => ?_⟩))
      exact Finset.mem_toList.trans found.mem_toFinset
  | lock key next =>
      by_cases taken : key ∈ held
      · exact .inr (.inr (.inr ⟨key, rfl, taken⟩))
      · exact .inr (.inr (.inl ⟨_, .lock workspace key next taken⟩))
  | lockSkipLocked key next =>
      by_cases taken : key ∈ held
      · exact .inr (.inr (.inl ⟨_, .lockSkipped workspace key next taken⟩))
      · exact .inr (.inr (.inl ⟨_, .lockTaken workspace key next taken⟩))
  | modify key change next =>
      by_cases taken : key ∈ held
      · exact .inr (.inr (.inr ⟨key, rfl, taken⟩))
      · exact .inr (.inr (.inl ⟨_, .modify workspace key change next taken⟩))
  | savepoint next => exact .inr (.inr (.inl ⟨_, .savepoint workspace next⟩))
  | rollbackTo next =>
      cases outer : workspace.saved with
      | nil => simp [Program.Orderly, outer] at ordered
      | cons entry rest =>
          exact .inr (.inr (.inl ⟨_, .rollbackTo workspace entry.1 entry.2 rest next outer⟩))
  | release next =>
      cases outer : workspace.saved with
      | nil => simp [Program.Orderly, outer] at ordered
      | cons entry rest =>
          exact .inr (.inr (.inl ⟨_, .release workspace entry rest next outer⟩))

end Transaction.Orderly

/-! ## Servers -/

/-- The next statement of the session is for a row that another one has
locked. -/
def Server.Awaits (server : Server Row Failure Result) (session other : Nat) (key : Key) :
    Prop :=
  ∃ waiting holding, server.transactions session = some waiting ∧
    server.transactions other = some holding ∧ other ≠ session ∧
    waiting.program.Wants key ∧ key ∈ holding.workspace.locks

/-- Sessions that all wait for one another. -/
structure Server.Deadlocked (server : Server Row Failure Result) (sessions : Set Nat) :
    Prop where
  nonempty : sessions.Nonempty
  awaits : ∀ session ∈ sessions, ∃ other ∈ sessions, ∃ key, server.Awaits session other key

/-- The open transactions carry on: one sends its next statement, commits, or is
rolled back since it failed. -/
inductive Server.Carries [DecidableEq Key] :
    Server Row Failure Result → Server Row Failure Result → Prop
  | statement (server : Server Row Failure Result) (session : Nat) (transaction next)
      (current : server.transactions session = some transaction)
      (sent : Statement server.committed.rows (server.heldByOthers session)
        transaction next) :
      Carries server (server.withTransaction session (some next))
  | commit (server : Server Row Failure Result) (session : Nat) (workspace result)
      (current : server.transactions session = some ⟨workspace, .finish result⟩) :
      Carries server
        { (server.withTransaction session none) with
          committed := server.committed.extend result
            (overlay workspace.writes server.committed.rows) }
  | failed (server : Server Row Failure Result) (session : Nat) (workspace failure)
      (current : server.transactions session = some ⟨workspace, .fail failure⟩) :
      Carries server (server.withTransaction session none)

/-- In every schedule the open transactions come to an end. -/
inductive Server.Completes [DecidableEq Key] : Server Row Failure Result → Prop
  | idle (server : Server Row Failure Result)
      (ended : ∀ session, server.transactions session = none) : Completes server
  | later (server : Server Row Failure Result) (carries : ∃ next, server.Carries next)
      (completes : ∀ next, server.Carries next → Completes next) : Completes server

section Servers

variable [DecidableEq Key] {programs : Program Row Failure Result → Prop}
  {server next : Server Row Failure Result}

theorem Server.Carries.step (carries : server.Carries next) : Step programs server next := by
  cases carries with
  | statement session transaction next current sent =>
      exact .statement server session transaction next current sent
  | commit session workspace result current =>
      exact .commit server session workspace result current
  | failed session workspace failure current =>
      exact .rollback server session _ current

/-! ### The locks of other transactions -/

/-- The contract that asks for nothing. -/
def Contract.free : Contract Row Result where
  Invariant := fun _ => True
  Effect := fun _ _ _ => True
  preserved := fun _ _ => trivial

theorem Program.free_yields (program : Program Row Failure Result)
    (workspace : Workspace Row) (committed : Committed Row Result) :
    Contract.free.Yields program Contract.free.Commits workspace committed := by
  induction program generalizing workspace committed with
  | finish result => trivial
  | fail failure => trivial
  | clock next induction | refuse next induction =>
      exact fun seen => induction seen workspace committed
  | read next induction | lock key next induction | modify key change next induction =>
      exact fun later _ _ => induction _ _ later
  | scan wanted next induction => exact fun keys _ _ later _ _ => induction _ keys _ later
  | lockSkipLocked key next induction =>
      exact ⟨fun later _ _ => induction false _ later, fun later _ _ => induction true _ later⟩
  | savepoint next induction => exact induction _ committed
  | rollbackTo next induction =>
      simp only [Contract.Yields, Contract.Wp]
      cases workspace.saved with
      | nil => trivial
      | cons entry rest => exact fun later _ _ => induction _ later
  | release next induction =>
      simp only [Contract.Yields, Contract.Wp]
      cases workspace.saved with
      | nil => trivial
      | cons entry rest => exact induction _ committed

/-- No two open transactions hold one lock. -/
theorem locks_exclusive {rows : Store Row} (reachable : Reachable programs rows server)
    {first second : Nat} {left right : Transaction Row Failure Result}
    (leftOpen : server.transactions first = some left)
    (rightOpen : server.transactions second = some right) (different : first ≠ second)
    {key : Key} (locked : key ∈ left.workspace.locks) : key ∉ right.workspace.locks :=
  (Contract.free.reachable_sound (fun program _ committed _ => program.free_yields _ committed)
    trivial reachable).exclusive leftOpen rightOpen different key locked

/-! ### No deadlocks -/

variable [LinearOrder Rank] {order : LockOrder Key Rank} {rows : Store Row}

/-- What every reachable server keeps when its programs are orderly. -/
structure Server.Orderly (order : LockOrder Key Rank) (server : Server Row Failure Result) :
    Prop where
  transactions : ∀ {session transaction},
    server.transactions session = some transaction → transaction.Orderly order
  sessions : { session | server.transactions session ≠ none }.Finite
  rows : (stored server.committed.rows).Finite

/-- The programs that the server runs are orderly. -/
def OrderlyPrograms (order : LockOrder Key Rank)
    (programs : Program Row Failure Result → Prop) : Prop :=
  ∀ program, programs program → program.Orderly order (fun _ _ _ => True) ∅ []

omit [DecidableEq Key] in
theorem Server.Orderly.replace (orderly : server.Orderly order) (session : Nat)
    (transaction : Option (Transaction Row Failure Result))
    (kept : ∀ found, transaction = some found → found.Orderly order) :
    (server.withTransaction session transaction).Orderly order where
  transactions := by
    intro other found present
    rcases Server.withTransaction_cases present with ⟨_, new⟩ | ⟨_, old⟩
    · exact kept found new
    · exact orderly.transactions old
  sessions := by
    apply (orderly.sessions.insert session).subset
    intro other present
    by_cases same : other = session
    · exact .inl same
    · refine .inr ?_
      simpa [withTransaction, Function.update_of_ne same] using present
  rows := orderly.rows

theorem Server.Orderly.step (ordered : OrderlyPrograms order programs)
    (orderly : server.Orderly order) (step : Step programs server next) :
    next.Orderly order := by
  cases step with
  | begin session program idle admitted =>
      apply orderly.replace
      rintro found ⟨⟩
      exact ⟨ordered program admitted, .empty, Set.finite_empty.subset fun key touched =>
        absurd rfl touched, fun entry absent => absurd absent List.not_mem_nil⟩
  | statement session transaction after current sent =>
      apply orderly.replace
      rintro found ⟨⟩
      exact (orderly.transactions current).statement sent
  | rollback session transaction current =>
      exact orderly.replace session none fun found absent => by cases absent
  | commit session workspace result current =>
      have ended : (server.withTransaction session none).Orderly order :=
        orderly.replace session none fun found absent => by cases absent
      refine ⟨ended.transactions, ended.sessions, ?_⟩
      exact ((orderly.transactions current).finite.union orderly.rows).subset
        (stored_overlay _ _)

theorem orderly_of_reachable (ordered : OrderlyPrograms order programs)
    (finite : (stored rows).Finite) (reachable : Reachable programs rows server) :
    server.Orderly order := by
  induction reachable with
  | refl =>
      exact ⟨fun absent => (by cases absent),
        Set.finite_empty.subset fun session present => absurd rfl present, finite⟩
  | tail _ step induction => exact induction.step ordered step

/-- A row that an orderly transaction waits for is not guarded. -/
theorem Server.Awaits.unguarded (orderly : server.Orderly order)
    (reachable : Reachable programs rows server) {session other : Nat} {key : Key}
    (awaits : server.Awaits session other key) : order.guard key = none := by
  obtain ⟨waiting, holding, current, present, different, wants, locked⟩ := awaits
  by_contra guarded
  obtain ⟨lock, guard⟩ := Option.ne_none_iff_exists'.mp guarded
  have mine := ((orderly.transactions current).admits wants).shielded lock guard
  have theirs := (orderly.transactions present).closed key locked lock guard
  exact locks_exclusive reachable present current different theirs mine

/-- Orderly transactions never wait for one another in a circle. -/
theorem not_deadlocked (ordered : OrderlyPrograms order programs)
    (finite : (stored rows).Finite) (reachable : Reachable programs rows server)
    (sessions : Set Nat) : ¬ server.Deadlocked sessions := by
  intro deadlocked
  have orderly := orderly_of_reachable ordered finite reachable
  obtain ⟨start, begun⟩ := deadlocked.nonempty
  obtain ⟨_, _, wanted, _⟩ := deadlocked.awaits start begun
  have : Nonempty Key := ⟨wanted⟩
  choose! other inside key awaits using deadlocked.awaits
  have bounded : sessions.Finite := by
    apply orderly.sessions.subset
    intro session member absent
    obtain ⟨waiting, _, current, _⟩ := awaits session member
    cases absent.symm.trans current
  -- The session whose row comes last waits for one that waits for a later row.
  obtain ⟨last, member, greatest⟩ := Set.exists_max_image sessions
    (fun session => order.rank (key session)) bounded ⟨start, begun⟩
  have next := inside last member
  obtain ⟨_, holding, current, present, different, _, locked⟩ := awaits last member
  obtain ⟨waiting, third, again, stored, apart, wants, taken⟩ := awaits _ next
  cases present.symm.trans again
  have free := (awaits last member).unguarded orderly reachable
  have admits := (orderly.transactions present).admits wants
  have notHeld := locks_exclusive reachable stored present apart taken
  have later := admits.ordered ((awaits _ next).unguarded orderly reachable) notHeld
    _ locked free
  exact absurd later (not_lt.mpr (greatest _ next))

/-! ### Every schedule ends -/

/-- The statements that are left after one more. -/
inductive Program.Follows : Program Row Failure α → Program Row Failure α → Prop
  | clock (next : Int → Program Row Failure α) (reading : Int) :
      Follows (next reading) (.clock next)
  | refuse (next : Bool → Program Row Failure α) (refused : Bool) :
      Follows (next refused) (.refuse next)
  | read (next : Store Row → Program Row Failure α) (store : Store Row) :
      Follows (next store) (.read next)
  | scan (wanted : Store Row → Key → Bool) (next : Store Row → List Key → Program Row Failure α)
      (store : Store Row) (keys : List Key) : Follows (next store keys) (.scan wanted next)
  | lock (key : Key) (next : Option (Row key) → Program Row Failure α)
      (row : Option (Row key)) : Follows (next row) (.lock key next)
  | lockSkipLocked (key : Key) (next : Bool → Program Row Failure α) (locked : Bool) :
      Follows (next locked) (.lockSkipLocked key next)
  | modify (key : Key) (change : Option (Row key) → Change (Row key))
      (next : Change (Row key) → Program Row Failure α) (made : Change (Row key)) :
      Follows (next made) (.modify key change next)
  | savepoint (next : Program Row Failure α) : Follows next (.savepoint next)
  | rollbackTo (next : Program Row Failure α) : Follows next (.rollbackTo next)
  | release (next : Program Row Failure α) : Follows next (.release next)

omit [DecidableEq Key] in
theorem Program.follows_wellFounded :
    WellFounded (Program.Follows : Program Row Failure α → Program Row Failure α → Prop) := by
  constructor
  intro program
  induction program with
  | finish | fail => exact ⟨_, fun later follows => by cases follows⟩
  | clock next induction | refuse next induction | read next induction
  | lock key next induction | lockSkipLocked key next induction
  | modify key change next induction =>
      refine ⟨_, fun later follows => ?_⟩
      cases follows
      exact induction _
  | scan wanted next induction =>
      refine ⟨_, fun later follows => ?_⟩
      cases follows
      exact induction _ _
  | savepoint next induction | rollbackTo next induction | release next induction =>
      refine ⟨_, fun later follows => ?_⟩
      cases follows
      exact induction

theorem Statement.follows {held : Set Key} {before after : Transaction Row Failure Result}
    (sent : Statement rows held before after) : after.program.Follows before.program := by
  cases sent <;> constructor

/-- What is left of an open transaction. -/
def remainder (transaction : Option (Transaction Row Failure Result)) :
    Multiset (Program Row Failure Result) :=
  match transaction with
  | none => 0
  | some transaction => {transaction.program}

/-- What is left to send in these sessions. -/
def Server.remaining (server : Server Row Failure Result) (sessions : Finset Nat) :
    Multiset (Program Row Failure Result) :=
  ∑ session ∈ sessions, remainder (server.transactions session)

omit [DecidableEq Key] in
/-- What is left when one session has a new transaction. -/
theorem Server.remaining_replaced {session : Nat} {sessions : Finset Nat}
    (member : session ∈ sessions) (transaction : Option (Transaction Row Failure Result)) :
    (server.withTransaction session transaction).remaining sessions =
      remainder transaction +
        ∑ other ∈ sessions.erase session, remainder (server.transactions other) := by
  have rest : ∀ other ∈ sessions.erase session,
      remainder ((server.withTransaction session transaction).transactions other) =
        remainder (server.transactions other) := by
    intro other listed
    rw [withTransaction]
    dsimp only
    rw [Function.update_of_ne (Finset.ne_of_mem_erase listed)]
  rw [remaining, ← Finset.add_sum_erase _ _ member, Finset.sum_congr rfl rest,
    withTransaction]
  dsimp only
  rw [Function.update_self]

/-- Every open session is one of these. -/
def Server.Within (server : Server Row Failure Result) (sessions : Finset Nat) : Prop :=
  ∀ session transaction, server.transactions session = some transaction → session ∈ sessions

/-- To carry on leaves less to send, in the same sessions. -/
theorem Server.Carries.remaining {sessions : Finset Nat} (carries : server.Carries next)
    (within : server.Within sessions) :
    next.Within sessions ∧ Relation.CutExpand Program.Follows (next.remaining sessions)
      (server.remaining sessions) := by
  have replaced : ∀ {session transaction} (left : Option (Transaction Row Failure Result)),
      server.transactions session = some transaction →
      (∀ found, left = some found → found.program.Follows transaction.program) →
      (server.withTransaction session left).Within sessions ∧
        Relation.CutExpand Program.Follows
          ((server.withTransaction session left).remaining sessions)
          (server.remaining sessions) := by
    intro session transaction left current shorter
    have member := within session transaction current
    refine ⟨fun other found present => ?_, ?_⟩
    · rcases Server.withTransaction_cases present with ⟨rfl, _⟩ | ⟨_, old⟩
      · exact member
      · exact within other found old
    · rw [Server.remaining_replaced member, Server.remaining,
        ← Finset.add_sum_erase _ _ member, current, Relation.cutExpand_add_right]
      apply Relation.cutExpand_singleton
      intro program listed
      cases left with
      | none => exact absurd listed (Multiset.notMem_zero _)
      | some found =>
          rw [Multiset.mem_singleton.mp listed]
          exact shorter found rfl
  cases carries with
  | statement session transaction after current sent =>
      apply replaced (some after) current
      rintro found ⟨⟩
      exact sent.follows
  | commit session workspace result current =>
      exact replaced none current fun found absent => by cases absent
  | failed session workspace failure current =>
      exact replaced none current fun found absent => by cases absent

/-- While a transaction is open, some transaction can carry on. -/
theorem Server.Orderly.carries (ordered : OrderlyPrograms order programs)
    (finite : (stored rows).Finite) (reachable : Reachable programs rows server)
    {session : Nat} {transaction : Transaction Row Failure Result}
    (current : server.transactions session = some transaction) :
    ∃ next, server.Carries next := by
  have orderly := orderly_of_reachable ordered finite reachable
  by_contra stuck
  apply not_deadlocked ordered finite reachable
    { session | server.transactions session ≠ none }
  refine ⟨⟨session, fun absent => by cases absent.symm.trans current⟩, ?_⟩
  intro waiting opened
  obtain ⟨found, present⟩ := Option.ne_none_iff_exists'.mp opened
  rcases (orderly.transactions present).proceeds orderly.rows (server.heldByOthers waiting) with
    ⟨result, ended⟩ | ⟨failure, ended⟩ | ⟨next, sent⟩ | ⟨key, wants, taken⟩
  · exact absurd ⟨_, .commit server waiting found.workspace result
      (ended ▸ present)⟩ stuck
  · exact absurd ⟨_, .failed server waiting found.workspace failure
      (ended ▸ present)⟩ stuck
  · exact absurd ⟨_, .statement server waiting found next present sent⟩ stuck
  · obtain ⟨other, holding, different, held, locked⟩ := taken
    exact ⟨other, fun absent => (by cases absent.symm.trans held), key, found, holding,
      present, held, different, wants, locked⟩

/-- Orderly transactions complete, whatever the order of their statements. -/
theorem completes (ordered : OrderlyPrograms order programs)
    (finite : (stored rows).Finite) (reachable : Reachable programs rows server) :
    server.Completes := by
  have orderly := orderly_of_reachable ordered finite reachable
  have within : server.Within orderly.sessions.toFinset := by
    intro session transaction current
    exact orderly.sessions.mem_toFinset.mpr fun absent => by cases absent.symm.trans current
  revert within
  generalize orderly.sessions.toFinset = sessions
  intro within
  clear orderly
  have founded : WellFounded fun later earlier : Server Row Failure Result =>
      Relation.CutExpand Program.Follows (later.remaining sessions)
        (earlier.remaining sessions) :=
    InvImage.wf (fun server : Server Row Failure Result => server.remaining sessions)
      (WellFounded.cutExpand Program.follows_wellFounded)
  induction server using founded.induction with
  | _ server induction =>
      by_cases ended : ∀ session, server.transactions session = none
      · exact .idle server ended
      · obtain ⟨session, opened⟩ := not_forall.mp ended
        obtain ⟨transaction, current⟩ := Option.ne_none_iff_exists'.mp opened
        refine .later server (Server.Orderly.carries ordered finite reachable current) ?_
        intro next carries
        have shorter := carries.remaining within
        exact induction next shorter.2 (reachable.tail carries.step) shorter.1

end Servers

end MeridianPostgreSQL.ReadCommitted
