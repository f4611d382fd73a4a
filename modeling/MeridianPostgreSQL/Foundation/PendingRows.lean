import MeridianPostgreSQL.Foundation.TransactionRuns

/-! # Rows that open transactions have written

What every change that the programs send keeps holds of the rows that open
transactions have written, and then of the rows that they commit. -/

namespace MeridianPostgreSQL.ReadCommitted

variable {Key : Type} {Row : Key → Type} {Failure Result α β : Type}

/-! ## Programs -/

section Programs

variable {allowed : (key : Key) → (Option (Row key) → Change (Row key)) → Set Key → Prop}
  {written : Set Key}

/-- Whatever the program reads, each change that it sends is allowed, given the
rows that it may have changed before, and it sets no savepoint. -/
def Program.Sends
    (allowed : (key : Key) → (Option (Row key) → Change (Row key)) → Set Key → Prop)
    (program : Program Row Failure α) (post : α → Set Key → Prop) (written : Set Key) : Prop :=
  match program with
  | .finish result => post result written
  | .fail _ => True
  | .clock next => ∀ reading, (next reading).Sends allowed post written
  | .refuse next => ∀ refused, (next refused).Sends allowed post written
  | .read next => ∀ store, (next store).Sends allowed post written
  | .scan wanted next => ∀ (store : Store Row) (keys : List Key), keys.Nodup →
      (∀ key, key ∈ keys ↔ wanted store key = true) →
        (next store keys).Sends allowed post written
  | .lock _ next => ∀ row, (next row).Sends allowed post written
  | .lockSkipLocked _ next => ∀ locked, (next locked).Sends allowed post written
  | .modify key change next => allowed key change written ∧
      ∀ made, (next made).Sends allowed post (insert key written)
  | .savepoint _ => False
  | .rollbackTo _ => False
  | .release _ => False

namespace Program

theorem sends_bind {program : Program Row Failure α} {next : α → Program Row Failure β}
    {post : β → Set Key → Prop} :
    (program >>= next).Sends allowed post written ↔
      program.Sends allowed (fun result => (next result).Sends allowed post) written := by
  change (program.handle next .fail).Sends allowed post written ↔ _
  induction program generalizing written with
  | finish | fail | savepoint | rollbackTo | release => exact Iff.rfl
  | clock next induction | refuse next induction | read next induction
  | lock key next induction | lockSkipLocked key next induction =>
      exact forall_congr' fun answer => induction answer
  | scan wanted next induction =>
      exact forall₂_congr fun store keys => forall₂_congr fun _ _ => induction store keys
  | modify key change next induction =>
      exact and_congr_right fun _ => forall_congr' fun made => induction made

theorem Sends.mono {program : Program Row Failure α} {post post' : α → Set Key → Prop}
    (sends : program.Sends allowed post written)
    (finished : ∀ result written, post result written → post' result written) :
    program.Sends allowed post' written := by
  induction program generalizing written with
  | finish result => exact finished result written sends
  | fail => trivial
  | savepoint | rollbackTo | release => exact sends
  | clock next induction | refuse next induction | read next induction
  | lock key next induction | lockSkipLocked key next induction =>
      exact fun answer => induction answer (sends answer)
  | scan wanted next induction =>
      exact fun store keys nodup complete =>
        induction store keys (sends store keys nodup complete)
  | modify key change next induction =>
      exact ⟨sends.1, fun made => induction made (sends.2 made)⟩

end Program

end Programs

/-! ## Statements -/

/-- Every row of the store has the property. -/
def StoreHolds (holds : (key : Key) → Row key → Prop) (rows : Store Row) : Prop :=
  ∀ key row, rows key = some row → holds key row

/-- The transaction sends allowed changes, and what it has written holds. -/
structure Transaction.Pending
    (allowed : (key : Key) → (Option (Row key) → Change (Row key)) → Set Key → Prop)
    (holds : (key : Key) → Row key → Prop)
    (transaction : Transaction Row Failure Result) : Prop where
  sends : ∃ written, (∀ key, transaction.workspace.writes key ≠ none → key ∈ written) ∧
    transaction.program.Sends allowed (fun _ _ => True) written
  holds : ∀ key row, transaction.workspace.writes key = some (some row) → holds key row

section Statements

variable [DecidableEq Key]
  {allowed : (key : Key) → (Option (Row key) → Change (Row key)) → Set Key → Prop}
  {holds : (key : Key) → Row key → Prop} {rows : Store Row} {held : Set Key}
  {before after : Transaction Row Failure Result}

/-- The changes that the transaction is about to send keep the property. -/
def Transaction.Keeps
    (allowed : (key : Key) → (Option (Row key) → Change (Row key)) → Set Key → Prop)
    (holds : (key : Key) → Row key → Prop) (rows : Store Row)
    (transaction : Transaction Row Failure Result) : Prop :=
  ∀ key change next written, transaction.program = .modify key change next →
    (∀ key, transaction.workspace.writes key ≠ none → key ∈ written) →
    allowed key change written →
    ∀ saved, change (overlay transaction.workspace.writes rows key) = .put saved →
      holds key saved

theorem Statement.pending (sent : Statement rows held before after)
    (pending : before.Pending allowed holds) (keeps : before.Keeps allowed holds rows) :
    after.Pending allowed holds := by
  obtain ⟨written, covered, sends⟩ := pending.sends
  cases sent with
  | clock _ _ reading => exact ⟨⟨written, covered, sends reading⟩, pending.holds⟩
  | refuse _ _ refused => exact ⟨⟨written, covered, sends refused⟩, pending.holds⟩
  | read => exact ⟨⟨written, covered, sends _⟩, pending.holds⟩
  | scan _ _ _ keys nodup complete =>
      exact ⟨⟨written, covered, sends _ keys nodup complete⟩, pending.holds⟩
  | lock workspace key next _ =>
      refine ⟨⟨written, ?_, sends _⟩, ?_⟩
      · rw [Workspace.lockRow_writes]
        exact covered
      · rw [Workspace.lockRow_writes]
        exact pending.holds
  | lockSkipped => exact ⟨⟨written, covered, sends false⟩, pending.holds⟩
  | lockTaken => exact ⟨⟨written, covered, sends true⟩, pending.holds⟩
  | modify workspace key change next _ =>
      have kept := keeps key change next written rfl covered sends.1
      have later := sends.2 (change (overlay workspace.writes rows key))
      have grown : ∀ made : Option (Row key), ∀ other,
          Function.update workspace.writes key (some made) other ≠ none →
            other ∈ insert key written := by
        intro made other present
        by_cases same : other = key
        · exact .inl same
        · rw [Function.update_of_ne same] at present
          exact .inr (covered other present)
      dsimp only at kept
      revert kept later
      cases change (overlay workspace.writes rows key) with
      | keep =>
          exact fun _ later => ⟨⟨_, fun other present => .inr (covered other present), later⟩,
            pending.holds⟩
      | put saved =>
          refine fun kept later => ⟨⟨_, grown (some saved), later⟩, fun other row found => ?_⟩
          by_cases same : other = key
          · subst same
            rw [Workspace.record_put_writes, Function.update_self] at found
            cases found
            exact kept _ rfl
          · rw [Workspace.record_put_writes, Function.update_of_ne same] at found
            exact pending.holds other row found
      | delete =>
          refine fun _ later => ⟨⟨_, grown none, later⟩, fun other row found => ?_⟩
          change Function.update workspace.writes key (some none) other = _ at found
          by_cases same : other = key
          · subst same
            rw [Function.update_self] at found
            cases found
          · rw [Function.update_of_ne same] at found
            exact pending.holds other row found
  | savepoint | rollbackTo | release => exact sends.elim

end Statements

/-! ## Steps -/

section Steps

variable [DecidableEq Key]
  {allowed : (key : Key) → (Option (Row key) → Change (Row key)) → Set Key → Prop}
  {holds : (key : Key) → Row key → Prop} {programs : Program Row Failure Result → Prop}
  {server next : Server Row Failure Result}

/-- The step is a statement of this transaction of the session. -/
def Server.Runs (server next : Server Row Failure Result) (session : Nat)
    (transaction : Transaction Row Failure Result) : Prop :=
  server.transactions session = some transaction ∧ ∃ after,
    Statement server.committed.rows (server.heldByOthers session) transaction after ∧
      next = server.withTransaction session (some after)

/-- The committed rows and those that open transactions have written hold. -/
structure Server.Holds
    (allowed : (key : Key) → (Option (Row key) → Change (Row key)) → Set Key → Prop)
    (holds : (key : Key) → Row key → Prop) (server : Server Row Failure Result) : Prop where
  committed : StoreHolds holds server.committed.rows
  pending : ∀ session transaction, server.transactions session = some transaction →
    transaction.Pending allowed holds

omit [DecidableEq Key] in
theorem Server.Holds.withTransaction {session : Nat}
    {transaction : Option (Transaction Row Failure Result)} (all : server.Holds allowed holds)
    (pending : ∀ begun, transaction = some begun → begun.Pending allowed holds) :
    (server.withTransaction session transaction).Holds allowed holds where
  committed := all.committed
  pending other found present := by
    by_cases same : other = session
    · subst same
      exact pending found ((Function.update_self other _ _).symm.trans present)
    · exact all.pending other found ((Function.update_of_ne same _ _).symm.trans present)

/-- A step keeps the property when the statement that it sends does. -/
theorem Server.Holds.step (all : server.Holds allowed holds)
    (sends : ∀ program, programs program → program.Sends allowed (fun _ _ => True) ∅)
    (step : Step programs server next)
    (keeps : ∀ session transaction, server.Runs next session transaction →
      transaction.Keeps allowed holds server.committed.rows) :
    next.Holds allowed holds := by
  cases step with
  | begin session program _ admitted =>
      refine all.withTransaction fun begun same => ?_
      cases same
      exact ⟨⟨∅, fun key present => absurd rfl present, sends program admitted⟩,
        fun key row found => by cases found⟩
  | statement session transaction after current sent =>
      refine all.withTransaction fun other same => ?_
      cases same
      exact sent.pending (all.pending session transaction current)
        (keeps session transaction ⟨current, after, sent, rfl⟩)
  | commit session workspace result current =>
      have closed : (server.withTransaction session none).Holds allowed holds :=
        all.withTransaction fun _ absent => by cases absent
      refine ⟨fun key row found => ?_, closed.pending⟩
      change overlay workspace.writes server.committed.rows key = some row at found
      cases made : workspace.writes key with
      | none =>
          rw [overlay_of_unwritten made] at found
          exact all.committed key row found
      | some change =>
          rw [overlay, made, Option.getD_some] at found
          subst found
          exact (all.pending session _ current).holds key row made
  | rollback session transaction _ =>
      exact all.withTransaction fun _ absent => by cases absent

end Steps

end MeridianPostgreSQL.ReadCommitted
