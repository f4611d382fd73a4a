import Mathlib.Data.Set.Insert
import Mathlib.Data.Set.Disjoint
import Mathlib.Logic.Function.Basic
import Mathlib.Logic.Relation

/-! # Read-committed transactions

A keyed store whose transactions run one statement at a time, interleaved in
any order. A statement sees the rows committed when it runs together with the
rows its own transaction has written. A written or locked row stays locked
until its transaction ends, and another transaction that wants it waits. -/

namespace MeridianPostgreSQL.ReadCommitted

/-! ## Rows -/

/-- Rows by key. The type of a row may depend on its key. -/
abbrev Store {Key : Type} (Row : Key → Type) := (key : Key) → Option (Row key)

/-- Rows a transaction has written but not committed. `some none` is a
deleted row. -/
abbrev Writes {Key : Type} (Row : Key → Type) :=
  (key : Key) → Option (Option (Row key))

/-- The store a transaction sees: its own writes over the committed rows. -/
def overlay {Key : Type} {Row : Key → Type} (writes : Writes Row)
    (store : Store Row) : Store Row :=
  fun key => (writes key).getD (store key)

@[simp] theorem overlay_fresh {Key : Type} {Row : Key → Type}
    (store : Store Row) : overlay (fun _ => none) store = store := rfl

theorem overlay_of_unwritten {Key : Type} {Row : Key → Type}
    {writes : Writes Row} {store : Store Row} {key : Key}
    (unwritten : writes key = none) : overlay writes store key = store key := by
  simp [overlay, unwritten]

/-- What a statement does to the one row it addresses. -/
inductive Change (α : Type)
  | keep
  | put (row : α)
  | delete

/-! ## Programs -/

/-- A transaction as the sequence of statements it sends. `scan` hands over
the keys of the matching rows in whatever order the server returns them.
`refuse` tells whether the server refuses the next statement with an error
that a savepoint can undo. -/
inductive Program {Key : Type} (Row : Key → Type) (Failure Result : Type)
  | finish (result : Result)
  | fail (failure : Failure)
  | clock (next : Int → Program Row Failure Result)
  | refuse (next : Bool → Program Row Failure Result)
  | read (next : Store Row → Program Row Failure Result)
  | scan (wanted : Store Row → Key → Bool)
      (next : Store Row → List Key → Program Row Failure Result)
  | lock (key : Key) (next : Option (Row key) → Program Row Failure Result)
  | lockSkipLocked (key : Key) (next : Bool → Program Row Failure Result)
  | modify (key : Key) (change : Option (Row key) → Change (Row key))
      (next : Change (Row key) → Program Row Failure Result)
  | savepoint (next : Program Row Failure Result)
  | rollbackTo (next : Program Row Failure Result)
  | release (next : Program Row Failure Result)

namespace Program

variable {Key : Type} {Row : Key → Type} {Failure α β : Type}

/-- Continue after a result, and after a failure. -/
def handle (program : Program Row Failure α)
    (finished : α → Program Row Failure β)
    (failed : Failure → Program Row Failure β) : Program Row Failure β :=
  match program with
  | .finish result => finished result
  | .fail failure => failed failure
  | .clock next => .clock fun reading => (next reading).handle finished failed
  | .refuse next => .refuse fun refused => (next refused).handle finished failed
  | .read next => .read fun store => (next store).handle finished failed
  | .scan wanted next =>
      .scan wanted fun store keys => (next store keys).handle finished failed
  | .lock key next => .lock key fun row => (next row).handle finished failed
  | .lockSkipLocked key next =>
      .lockSkipLocked key fun locked => (next locked).handle finished failed
  | .modify key change next =>
      .modify key change fun made => (next made).handle finished failed
  | .savepoint next => .savepoint (next.handle finished failed)
  | .rollbackTo next => .rollbackTo (next.handle finished failed)
  | .release next => .release (next.handle finished failed)

instance : Monad (Program Row Failure) where
  pure := .finish
  bind program next := program.handle next .fail

/-- Read the server's clock. -/
def timestamp : Program Row Failure Int := .clock .finish

/-- Fail if the server refuses the next statement. -/
def unlessRefused (failure : Failure) : Program Row Failure Unit :=
  .refuse fun refused => if refused then .fail failure else .finish ()

/-- Read any rows in one statement. -/
def select : Program Row Failure (Store Row) := .read .finish

/-- Find the keys of the matching rows in one statement. -/
def selectKeys (wanted : Store Row → Key → Bool) :
    Program Row Failure (Store Row × List Key) :=
  .scan wanted fun store keys => .finish (store, keys)

/-- Wait for a row, lock it and read it. -/
def selectForUpdate (key : Key) : Program Row Failure (Option (Row key)) :=
  .lock key .finish

/-- Lock a row unless another transaction holds it. -/
def skipLocked (key : Key) : Program Row Failure Bool :=
  .lockSkipLocked key .finish

/-- Wait for a row and insert, update or delete it. -/
def write (key : Key) (change : Option (Row key) → Change (Row key)) :
    Program Row Failure (Change (Row key)) :=
  .modify key change .finish

/-- Run a body under a savepoint: a failure undoes what the body wrote. -/
def transaction (body : Program Row Failure α) : Program Row Failure α :=
  .savepoint (body.handle (fun result => .release (.finish result))
    (fun failure => .rollbackTo (.fail failure)))

/-- Turn a failure into a value, as a caller that catches it does. -/
def attempt (body : Program Row Failure α) :
    Program Row Failure (Except Failure α) :=
  body.handle (fun result => .finish (.ok result))
    (fun failure => .finish (.error failure))

end Program

/-! ## Execution -/

/-- What an open transaction holds besides the statements still to send. Each
savepoint remembers the writes and locks to return to. -/
structure Workspace {Key : Type} (Row : Key → Type) where
  writes : Writes Row
  locks : Set Key
  saved : List (Writes Row × Set Key)

namespace Workspace

variable {Key : Type} {Row : Key → Type}

def fresh : Workspace Row where
  writes := fun _ => none
  locks := ∅
  saved := []

/-- Lock a row that exists. -/
def lockRow (workspace : Workspace Row) (key : Key)
    (row : Option (Row key)) : Workspace Row :=
  match row with
  | none => workspace
  | some _ => { workspace with locks := insert key workspace.locks }

/-- The transaction has written nothing so far. -/
def Unwritten (workspace : Workspace Row) : Prop :=
  workspace.writes = fun _ => none

theorem fresh_unwritten : (fresh : Workspace Row).Unwritten := rfl

theorem Unwritten.overlay {workspace : Workspace Row}
    (unwritten : workspace.Unwritten) (store : Store Row) :
    overlay workspace.writes store = store := by
  rw [unwritten, overlay_fresh]

theorem Unwritten.lock {workspace : Workspace Row}
    (unwritten : workspace.Unwritten) (key : Key) :
    ({ workspace with locks := insert key workspace.locks } :
      Workspace Row).Unwritten :=
  unwritten

theorem lockRow_writes (workspace : Workspace Row) (key : Key) (row : Option (Row key)) :
    (workspace.lockRow key row).writes = workspace.writes := by
  cases row <;> rfl

theorem Unwritten.lockRow {workspace : Workspace Row}
    (unwritten : workspace.Unwritten) (key : Key) (row : Option (Row key)) :
    (workspace.lockRow key row).Unwritten := by
  cases row <;> exact unwritten

variable [DecidableEq Key]

/-- Record a change. A changed row is locked. -/
def record (workspace : Workspace Row) (key : Key) :
    Change (Row key) → Workspace Row
  | .keep => workspace
  | .put row => { workspace with
      writes := Function.update workspace.writes key (some (some row))
      locks := insert key workspace.locks }
  | .delete => { workspace with
      writes := Function.update workspace.writes key (some none)
      locks := insert key workspace.locks }

@[simp] theorem record_keep (workspace : Workspace Row) (key : Key) :
    workspace.record key .keep = workspace := rfl

@[simp] theorem record_put_locks (workspace : Workspace Row) (key : Key)
    (row : Row key) :
    (workspace.record key (.put row)).locks = insert key workspace.locks := rfl

@[simp] theorem record_put_writes (workspace : Workspace Row) (key : Key)
    (row : Row key) :
    (workspace.record key (.put row)).writes =
      Function.update workspace.writes key (some (some row)) := rfl

/-- A recorded row shows over the committed ones. -/
theorem overlay_record_put (workspace : Workspace Row) (key : Key)
    (row : Row key) (store : Store Row) :
    overlay (workspace.record key (.put row)).writes store =
      Function.update (overlay workspace.writes store) key (some row) := by
  funext other
  by_cases same : other = key
  · subst other
    simp [overlay]
  · simp [overlay, Function.update_of_ne same]

end Workspace

/-- Committed rows and the results of the committed transactions, in commit
order. -/
structure Committed {Key : Type} (Row : Key → Type) (Result : Type) where
  rows : Store Row
  log : List Result

/-- The committed state after one more commit. -/
def Committed.extend {Key : Type} {Row : Key → Type} {Result : Type}
    (committed : Committed Row Result) (result : Result) (rows : Store Row) :
    Committed Row Result where
  rows := rows
  log := committed.log ++ [result]

/-- An entry of an extended log is the new one or an old one. -/
theorem extended_split {α : Type} {log earlier later : List α} {entry last : α}
    (split : log ++ [last] = earlier ++ entry :: later) :
    (later = [] ∧ earlier = log ∧ entry = last) ∨
      ∃ rest, later = rest ++ [last] ∧ log = earlier ++ entry :: rest := by
  rcases List.eq_nil_or_concat later with rfl | ⟨rest, final, rfl⟩
  · rcases List.append_inj' split rfl with ⟨rfl, same⟩
    cases same
    exact .inl ⟨rfl, rfl, rfl⟩
  · rw [List.concat_eq_append, ← List.cons_append, ← List.append_assoc] at split
    rcases List.append_inj' split rfl with ⟨rfl, same⟩
    cases same
    exact .inr ⟨rest, List.concat_eq_append, rfl⟩

structure Transaction {Key : Type} (Row : Key → Type) (Failure Result : Type)
    where
  workspace : Workspace Row
  program : Program Row Failure Result

structure Server {Key : Type} (Row : Key → Type) (Failure Result : Type) where
  committed : Committed Row Result
  transactions : Nat → Option (Transaction Row Failure Result)

section Execution

variable {Key : Type} [DecidableEq Key] {Row : Key → Type}
  {Failure Result : Type}

/-- One statement of one transaction, against the committed rows and the row
locks that other transactions hold. -/
inductive Statement (rows : Store Row) (held : Set Key) :
    Transaction Row Failure Result → Transaction Row Failure Result → Prop
  | clock (workspace next) (reading : Int) :
      Statement rows held ⟨workspace, .clock next⟩ ⟨workspace, next reading⟩
  | refuse (workspace next) (refused : Bool) :
      Statement rows held ⟨workspace, .refuse next⟩ ⟨workspace, next refused⟩
  | read (workspace next) :
      Statement rows held ⟨workspace, .read next⟩
        ⟨workspace, next (overlay workspace.writes rows)⟩
  | scan (workspace wanted next) (keys : List Key) (nodup : keys.Nodup)
      (complete : ∀ key, key ∈ keys ↔
        wanted (overlay workspace.writes rows) key = true) :
      Statement rows held ⟨workspace, .scan wanted next⟩
        ⟨workspace, next (overlay workspace.writes rows) keys⟩
  | lock (workspace key next) (available : key ∉ held) :
      Statement rows held ⟨workspace, .lock key next⟩
        ⟨workspace.lockRow key (overlay workspace.writes rows key),
          next (overlay workspace.writes rows key)⟩
  | lockSkipped (workspace key next) (taken : key ∈ held) :
      Statement rows held ⟨workspace, .lockSkipLocked key next⟩
        ⟨workspace, next false⟩
  | lockTaken (workspace key next) (available : key ∉ held) :
      Statement rows held ⟨workspace, .lockSkipLocked key next⟩
        ⟨{ workspace with locks := insert key workspace.locks }, next true⟩
  | modify (workspace key change next) (available : key ∉ held) :
      Statement rows held ⟨workspace, .modify key change next⟩
        ⟨workspace.record key (change (overlay workspace.writes rows key)),
          next (change (overlay workspace.writes rows key))⟩
  | savepoint (workspace next) :
      Statement rows held ⟨workspace, .savepoint next⟩
        ⟨{ workspace with
            saved := (workspace.writes, workspace.locks) :: workspace.saved },
          next⟩
  | rollbackTo (workspace writes locks saved next)
      (outer : workspace.saved = (writes, locks) :: saved) :
      Statement rows held ⟨workspace, .rollbackTo next⟩
        ⟨⟨writes, locks, saved⟩, next⟩
  | release (workspace entry saved next)
      (outer : workspace.saved = entry :: saved) :
      Statement rows held ⟨workspace, .release next⟩
        ⟨{ workspace with saved := saved }, next⟩

/-- The rows locked by transactions other than `session`. -/
def Server.heldByOthers (server : Server Row Failure Result)
    (session : Nat) : Set Key :=
  { key | ∃ other transaction, other ≠ session ∧
    server.transactions other = some transaction ∧
    key ∈ transaction.workspace.locks }

def Server.withTransaction (server : Server Row Failure Result) (session : Nat)
    (transaction : Option (Transaction Row Failure Result)) :
    Server Row Failure Result :=
  { server with
    transactions := Function.update server.transactions session transaction }

/-- A server step: begin a transaction, run one statement, commit a finished
one, or roll one back at any point. -/
inductive Step (programs : Program Row Failure Result → Prop) :
    Server Row Failure Result → Server Row Failure Result → Prop
  | begin (server : Server Row Failure Result) (session : Nat) (program)
      (idle : server.transactions session = none) (admitted : programs program) :
      Step programs server
        (server.withTransaction session (some ⟨.fresh, program⟩))
  | statement (server : Server Row Failure Result) (session : Nat)
      (transaction next)
      (current : server.transactions session = some transaction)
      (sent : Statement server.committed.rows (server.heldByOthers session)
        transaction next) :
      Step programs server (server.withTransaction session (some next))
  | commit (server : Server Row Failure Result) (session : Nat) (workspace result)
      (current : server.transactions session =
        some ⟨workspace, .finish result⟩) :
      Step programs server
        { (server.withTransaction session none) with
          committed := server.committed.extend result
            (overlay workspace.writes server.committed.rows) }
  | rollback (server : Server Row Failure Result) (session : Nat) (transaction)
      (current : server.transactions session = some transaction) :
      Step programs server (server.withTransaction session none)

/-- A server with no transaction open. -/
def Server.initial (rows : Store Row) : Server Row Failure Result where
  committed := ⟨rows, []⟩
  transactions := fun _ => none

/-- The servers that executions of `programs` from `rows` can reach. -/
def Reachable (programs : Program Row Failure Result → Prop) (rows : Store Row)
    (server : Server Row Failure Result) : Prop :=
  Relation.ReflTransGen (Step programs) (.initial rows) server

end Execution

end MeridianPostgreSQL.ReadCommitted
