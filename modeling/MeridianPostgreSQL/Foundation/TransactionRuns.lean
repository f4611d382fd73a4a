import MeridianPostgreSQL.Foundation.ReadCommitted

/-! # Possible executions

What a program may do when the other transactions stand still. A program that
may finish is run by the server from its begin to its commit. -/

namespace MeridianPostgreSQL.ReadCommitted

variable {Key : Type} {Row : Key → Type} {Failure Result α β : Type}

section Programs

variable [DecidableEq Key]

/-- The program may end in `post` while the committed rows and the locks of
other transactions stay as they are. -/
def Program.May (program : Program Row Failure α) (rows : Store Row)
    (held : Set Key) (post : α → Workspace Row → Prop)
    (failed : Failure → Workspace Row → Prop) (workspace : Workspace Row) : Prop :=
  match program with
  | .finish result => post result workspace
  | .fail failure => failed failure workspace
  | .clock next => ∃ reading, (next reading).May rows held post failed workspace
  | .refuse next => ∃ refused, (next refused).May rows held post failed workspace
  | .read next =>
      (next (overlay workspace.writes rows)).May rows held post failed workspace
  | .scan wanted next => ∃ keys : List Key, keys.Nodup ∧
      (∀ key, key ∈ keys ↔ wanted (overlay workspace.writes rows) key = true) ∧
      (next (overlay workspace.writes rows) keys).May rows held post failed workspace
  | .lock key next => key ∉ held ∧
      (next (overlay workspace.writes rows key)).May rows held post failed
        (workspace.lockRow key (overlay workspace.writes rows key))
  | .lockSkipLocked key next =>
      (key ∈ held ∧ (next false).May rows held post failed workspace) ∨
      (key ∉ held ∧ (next true).May rows held post failed
        { workspace with locks := insert key workspace.locks })
  | .modify key change next => key ∉ held ∧
      (next (change (overlay workspace.writes rows key))).May rows held post failed
        (workspace.record key (change (overlay workspace.writes rows key)))
  | .savepoint next => next.May rows held post failed
      { workspace with
        saved := (workspace.writes, workspace.locks) :: workspace.saved }
  | .rollbackTo next =>
      match workspace.saved with
      | [] => False
      | (writes, locks) :: saved => next.May rows held post failed ⟨writes, locks, saved⟩
  | .release next =>
      match workspace.saved with
      | [] => False
      | _ :: saved => next.May rows held post failed { workspace with saved := saved }

namespace Program

variable {rows : Store Row} {held : Set Key}

theorem may_handle {program : Program Row Failure α}
    {finished : α → Program Row Failure β}
    {fallen : Failure → Program Row Failure β}
    {post : β → Workspace Row → Prop} {failed : Failure → Workspace Row → Prop}
    {workspace : Workspace Row} :
    (program.handle finished fallen).May rows held post failed workspace ↔
      program.May rows held
        (fun result => (finished result).May rows held post failed)
        (fun failure => (fallen failure).May rows held post failed) workspace := by
  induction program generalizing workspace with
  | finish | fail => exact Iff.rfl
  | clock next induction | refuse next induction =>
      exact exists_congr fun reading => induction reading
  | read next induction => exact induction _
  | scan wanted next induction =>
      exact exists_congr fun keys => and_congr_right fun _ =>
        and_congr_right fun _ => induction _ keys
  | lock key next induction => exact and_congr_right fun _ => induction _
  | lockSkipLocked key next induction =>
      exact or_congr (and_congr_right fun _ => induction false)
        (and_congr_right fun _ => induction true)
  | modify key change next induction => exact and_congr_right fun _ => induction _
  | savepoint next induction => exact induction
  | rollbackTo next induction | release next induction =>
      simp only [handle, May]
      cases workspace.saved with
      | nil => exact Iff.rfl
      | cons entry saved => exact induction

theorem may_bind {program : Program Row Failure α} {next : α → Program Row Failure β}
    {post : β → Workspace Row → Prop} {failed : Failure → Workspace Row → Prop}
    {workspace : Workspace Row} :
    (program >>= next).May rows held post failed workspace ↔
      program.May rows held (fun result => (next result).May rows held post failed)
        failed workspace :=
  may_handle

theorem May.mono {program : Program Row Failure α}
    {post post' : α → Workspace Row → Prop}
    {failed failed' : Failure → Workspace Row → Prop} {workspace : Workspace Row}
    (may : program.May rows held post failed workspace)
    (finished : ∀ result workspace, post result workspace → post' result workspace)
    (fallen : ∀ failure workspace, failed failure workspace →
      failed' failure workspace) :
    program.May rows held post' failed' workspace := by
  induction program generalizing workspace with
  | finish result => exact finished result workspace may
  | fail failure => exact fallen failure workspace may
  | clock next induction | refuse next induction =>
      exact may.imp fun reading => induction reading
  | read next induction => exact induction _ may
  | scan wanted next induction =>
      exact may.imp fun keys both => ⟨both.1, both.2.1, induction _ keys both.2.2⟩
  | lock key next induction => exact ⟨may.1, induction _ may.2⟩
  | lockSkipLocked key next induction =>
      exact may.imp (fun skipped => ⟨skipped.1, induction false skipped.2⟩)
        fun taken => ⟨taken.1, induction true taken.2⟩
  | modify key change next induction => exact ⟨may.1, induction _ may.2⟩
  | savepoint next induction => exact induction may
  | rollbackTo next induction | release next induction =>
      simp only [May] at may ⊢
      cases found : workspace.saved with
      | nil => simp [found] at may
      | cons entry saved =>
          rw [found] at may
          exact induction may

section Rules

variable {workspace : Workspace Row}

theorem may_timestamp {post : Int → Workspace Row → Prop}
    {failed : Failure → Workspace Row → Prop} (reading : Int)
    (holds : post reading workspace) :
    (timestamp : Program Row Failure Int).May rows held post failed workspace :=
  ⟨reading, holds⟩

theorem may_unlessRefused {failure : Failure} {post : Unit → Workspace Row → Prop}
    {failed : Failure → Workspace Row → Prop} (holds : post () workspace) :
    (unlessRefused failure : Program Row Failure Unit).May rows held post failed
      workspace :=
  ⟨false, holds⟩

theorem may_write {key : Key} {change : Option (Row key) → Change (Row key)}
    {post : Change (Row key) → Workspace Row → Prop}
    {failed : Failure → Workspace Row → Prop} (available : key ∉ held)
    (holds : post (change (overlay workspace.writes rows key))
      (workspace.record key (change (overlay workspace.writes rows key)))) :
    (write key change : Program Row Failure _).May rows held post failed workspace :=
  ⟨available, holds⟩

theorem may_selectForUpdate {key : Key} {post : Option (Row key) → Workspace Row → Prop}
    {failed : Failure → Workspace Row → Prop} (available : key ∉ held)
    (holds : post (overlay workspace.writes rows key)
      (workspace.lockRow key (overlay workspace.writes rows key))) :
    (selectForUpdate key : Program Row Failure _).May rows held post failed workspace :=
  ⟨available, holds⟩

/-- A body that may finish under a savepoint may release it. -/
theorem may_transaction {body : Program Row Failure α}
    {post : α → Workspace Row → Prop} {failed : Failure → Workspace Row → Prop}
    (holds : body.May rows held
      (fun result after => ∃ entry, after.saved = entry :: workspace.saved ∧
        post result { after with saved := workspace.saved })
      (fun _ _ => False)
      { workspace with
        saved := (workspace.writes, workspace.locks) :: workspace.saved }) :
    (transaction body).May rows held post failed workspace := by
  apply may_handle.mpr
  apply holds.mono
  · intro result after finished
    rcases finished with ⟨entry, saved, met⟩
    simp only [May, saved]
    exact met
  · exact fun _ _ absurd => absurd.elim

theorem may_attempt {body : Program Row Failure α}
    {post : Except Failure α → Workspace Row → Prop}
    {failed : Failure → Workspace Row → Prop}
    (holds : body.May rows held (fun result => post (.ok result))
      (fun failure => post (.error failure)) workspace) :
    (attempt body).May rows held post failed workspace :=
  may_handle.mpr holds

end Rules

/-- The transaction may finish in `post`, statement by statement. -/
def Finishes (rows : Store Row) (held : Set Key)
    (post : Result → Workspace Row → Prop)
    (transaction : Transaction Row Failure Result) : Prop :=
  ∃ result workspace, post result workspace ∧
    Relation.ReflTransGen (Statement rows held) transaction
      ⟨workspace, .finish result⟩

theorem Finishes.head {post : Result → Workspace Row → Prop}
    {first second : Transaction Row Failure Result}
    (statement : Statement rows held first second)
    (finishes : Finishes rows held post second) :
    Finishes rows held post first := by
  rcases finishes with ⟨result, workspace, met, rest⟩
  exact ⟨result, workspace, met, .head statement rest⟩

/-- What may happen is an execution of statements. -/
theorem May.finishes {program : Program Row Failure Result}
    {post : Result → Workspace Row → Prop} {workspace : Workspace Row}
    (may : program.May rows held post (fun _ _ => False) workspace) :
    Finishes rows held post ⟨workspace, program⟩ := by
  induction program generalizing workspace with
  | finish result => exact ⟨result, workspace, may, .refl⟩
  | fail failure => exact may.elim
  | clock next induction =>
      rcases may with ⟨reading, may⟩
      exact (induction reading may).head (.clock workspace next reading)
  | refuse next induction =>
      rcases may with ⟨refused, may⟩
      exact (induction refused may).head (.refuse workspace next refused)
  | read next induction => exact (induction _ may).head (.read workspace next)
  | scan wanted next induction =>
      rcases may with ⟨keys, nodup, complete, may⟩
      exact (induction _ keys may).head (.scan workspace wanted next keys nodup complete)
  | lock key next induction =>
      exact (induction _ may.2).head (.lock workspace key next may.1)
  | lockSkipLocked key next induction =>
      rcases may with ⟨taken, may⟩ | ⟨available, may⟩
      · exact (induction false may).head (.lockSkipped workspace key next taken)
      · exact (induction true may).head (.lockTaken workspace key next available)
  | modify key change next induction =>
      exact (induction _ may.2).head (.modify workspace key change next may.1)
  | savepoint next induction => exact (induction may).head (.savepoint workspace next)
  | rollbackTo next induction =>
      simp only [May] at may
      cases outer : workspace.saved with
      | nil => simp [outer] at may
      | cons entry saved =>
          rw [outer] at may
          exact (induction may).head
            (.rollbackTo workspace entry.1 entry.2 saved next outer)
  | release next induction =>
      simp only [May] at may
      cases outer : workspace.saved with
      | nil => simp [outer] at may
      | cons entry saved =>
          rw [outer] at may
          exact (induction may).head (.release workspace entry saved next outer)

end Program

end Programs

/-! ## On a server -/

section Servers

variable {server : Server Row Failure Result} {session : Nat}

@[simp] theorem Server.heldByOthers_withTransaction
    (transaction : Option (Transaction Row Failure Result)) :
    (server.withTransaction session transaction).heldByOthers session =
      server.heldByOthers session := by
  ext key
  constructor <;> rintro ⟨other, found, different, present, locked⟩ <;>
    refine ⟨other, found, different, ?_, locked⟩
  · simpa [Server.withTransaction, Function.update_of_ne different] using present
  · simpa [Server.withTransaction, Function.update_of_ne different] using present

theorem Server.withTransaction_withTransaction
    (first second : Option (Transaction Row Failure Result)) :
    (server.withTransaction session first).withTransaction session second =
      server.withTransaction session second := by
  simp [Server.withTransaction]

theorem Server.withTransaction_self
    (idle : server.transactions session = none) :
    server.withTransaction session none = server := by
  simp [Server.withTransaction, ← idle]

variable [DecidableEq Key] {programs : Program Row Failure Result → Prop}

theorem Step.mono {wider : Program Row Failure Result → Prop}
    {next : Server Row Failure Result} (step : Step programs server next)
    (admits : ∀ program, programs program → wider program) :
    Step wider server next := by
  cases step with
  | begin session program idle admitted =>
      exact .begin server session program idle (admits program admitted)
  | statement session transaction next current sent =>
      exact .statement server session transaction next current sent
  | commit session workspace result current =>
      exact .commit server session workspace result current
  | rollback session transaction current =>
      exact .rollback server session transaction current

/-- A step from a state in which nothing more has been committed. -/
def StepFrom (programs : Program Row Failure Result → Prop) (committed : Committed Row Result)
    (server next : Server Row Failure Result) : Prop :=
  Step programs server next ∧ server.committed = committed

theorem StepFrom.steps {committed : Committed Row Result} {next : Server Row Failure Result}
    (run : Relation.ReflTransGen (StepFrom programs committed) server next) :
    Relation.ReflTransGen (Step programs) server next :=
  Relation.ReflTransGen.mono (fun _ _ => And.left) _ _ run

/-- Statements of one transaction are steps of the server. -/
theorem Server.run_statements
    {first last : Transaction Row Failure Result}
    (statements : Relation.ReflTransGen
      (Statement server.committed.rows (server.heldByOthers session)) first last) :
    Relation.ReflTransGen (StepFrom programs server.committed)
      (server.withTransaction session (some first))
      (server.withTransaction session (some last)) := by
  induction statements with
  | refl => exact .refl
  | @tail middle last rest statement induction =>
      have step : Step programs (server.withTransaction session (some middle))
          ((server.withTransaction session (some middle)).withTransaction session
            (some last)) := by
        refine .statement _ session middle last ?_ ?_
        · simp [Server.withTransaction]
        · rw [Server.heldByOthers_withTransaction]
          exact statement
      rw [Server.withTransaction_withTransaction] at step
      exact induction.tail ⟨step, rfl⟩

/-- An idle session can run a program that may finish, and commit it. -/
theorem Server.run_may_from {program : Program Row Failure Result}
    {post : Result → Workspace Row → Prop} (admitted : programs program)
    (idle : server.transactions session = none)
    (may : program.May server.committed.rows (server.heldByOthers session) post
      (fun _ _ => False) .fresh) :
    ∃ result workspace, post result workspace ∧
      Relation.ReflTransGen (StepFrom programs server.committed) server
        { server with
          committed := server.committed.extend result
            (overlay workspace.writes server.committed.rows) } := by
  rcases may.finishes with ⟨result, workspace, met, statements⟩
  refine ⟨result, workspace, met, ?_⟩
  have begun := Relation.ReflTransGen.head
    ⟨Step.begin server session program idle admitted, rfl⟩
    (Server.run_statements statements)
  have committed : Step programs _ _ :=
    .commit (server.withTransaction session (some ⟨workspace, .finish result⟩)) session
      workspace result (by simp [Server.withTransaction])
  rw [Server.withTransaction_withTransaction, Server.withTransaction_self idle]
    at committed
  exact begun.tail ⟨committed, rfl⟩

theorem Server.run_may {program : Program Row Failure Result}
    {post : Result → Workspace Row → Prop} (admitted : programs program)
    (idle : server.transactions session = none)
    (may : program.May server.committed.rows (server.heldByOthers session) post
      (fun _ _ => False) .fresh) :
    ∃ result workspace, post result workspace ∧
      Relation.ReflTransGen (Step programs) server
        { server with
          committed := server.committed.extend result
            (overlay workspace.writes server.committed.rows) } := by
  obtain ⟨result, workspace, met, run⟩ := Server.run_may_from admitted idle may
  exact ⟨result, workspace, met, StepFrom.steps run⟩

/-- A server on which no transaction is open. -/
def Server.atRest (committed : Committed Row Result) : Server Row Failure Result where
  committed := committed
  transactions := fun _ => none

omit [DecidableEq Key] in
theorem Server.heldByOthers_atRest (committed : Committed Row Result) (session : Nat) :
    (Server.atRest committed : Server Row Failure Result).heldByOthers session = ∅ := by
  ext key
  simp [Server.heldByOthers, Server.atRest]

/-- A transaction that runs alone. -/
theorem Server.run_alone {program : Program Row Failure Result}
    {post : Result → Workspace Row → Prop} {rows : Store Row} {log : List Result}
    (admitted : programs program)
    (may : program.May rows ∅ post (fun _ _ => False) .fresh) :
    ∃ result workspace, post result workspace ∧
      Relation.ReflTransGen (Step programs) (Server.atRest ⟨rows, log⟩)
        (Server.atRest ⟨overlay workspace.writes rows, log ++ [result]⟩) := by
  let server : Server Row Failure Result := .atRest ⟨rows, log⟩
  have idle : server.transactions 0 = none := rfl
  have free : server.heldByOthers 0 = ∅ := Server.heldByOthers_atRest _ 0
  exact Server.run_may admitted idle (free ▸ may)

end Servers

end MeridianPostgreSQL.ReadCommitted
