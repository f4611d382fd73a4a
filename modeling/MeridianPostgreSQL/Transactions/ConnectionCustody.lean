import MeridianPostgreSQL.Foundation.Custody
import MeridianPostgreSQL.Transactions.CommitOutcomes

/-! # Custody of connections

The calls of a session with what they ask of the pool and of its connections,
in order. Without the log they are the calls of `Session`. -/

namespace MeridianPostgreSQL.Transactions

/-- What is sent on a connection. The statements of one `_execute` are one
entry of the log. -/
inductive Command where
  | begin
  | statements
  | commit
  | rollback
deriving DecidableEq

abbrev ConnectionEvent := CustodyEvent Command

/-- A world, how many connections the pool has lent the session, and what
happened to them. The session knows only the last one. -/
structure Watched where
  world : World
  obtained : Nat
  log : List ConnectionEvent
deriving DecidableEq

def Watched.initial (transactional : Bool) : Watched :=
  ⟨.initial transactional, 0, []⟩

def Watched.withWorld (watched : Watched) (world : World) : Watched :=
  { watched with world := world }

def Watched.note (watched : Watched) (event : ConnectionEvent) : Watched :=
  { watched with log := watched.log ++ [event] }

/-- `getconn` returned. -/
def Watched.obtain (watched : Watched) : Watched where
  world := watched.world.withConnection (some ⟨0, false⟩)
  obtained := watched.obtained + 1
  log := watched.log ++ [.lent (watched.obtained + 1)]

abbrev Watching := EStateM Raise Watched

namespace Watching

/-- An action that neither the pool nor a connection sees. -/
def unseen {α : Type} (action : Action α) : Watching α := fun watched =>
  match action.run watched.world with
  | .ok result world => .ok result (watched.withWorld world)
  | .error error world => .error error (watched.withWorld world)

/-- Something happens to the session's connection. -/
def note (event : Nat → ConnectionEvent) : Watching Unit :=
  modify fun watched => watched.note (event watched.obtained)

def suppress (action : Watching Unit) : Watching Unit :=
  tryCatch action fun _ => pure ()

/-- `_release` -/
def release (answers : Answers) (discard : Bool) : Watching Unit := do
  let watched ← get
  unseen (modify World.released)
  match watched.world.session.connection with
  | none => pure ()
  | some _ => do
      if discard then do
        note .discarded
        unseen (wait answers.closing)
      else pure ()
      note .returned
      unseen (wait answers.returning)

/-- `_guard` -/
def guard (answers : Answers) (body : Watching Unit) : Watching Unit := do
  unseen (remaining answers.admitted)
  body

/-- `_acquire_begin` -/
def acquireBegin (answers : Answers) : Watching Unit := do
  unseen (remaining answers.acquiring)
  match acquire answers.attempts with
  | .error failure => throw failure.raise
  | .ok _ => do
      modify Watched.obtain
      tryCatch
        (do
          unseen (remaining answers.beforeBegin)
          note (.used · .begin)
          unseen (wait answers.beginning)
          unseen (modify World.begin)
          unseen (remaining answers.afterBegin)
          unseen (modify fun world => world.withSession { world.session with begun := true }))
        fun error => do
          suppress (release answers true)
          throw error

/-- `_execute` -/
def statement (answers : Answers) : Watching Unit := do
  note (.used · .statements)
  unseen (Transactions.statement answers)

def refuse (answers : Answers) (state : CommitState) : Watching Unit := do
  suppress (release answers true)
  throw (.commitOutcome state)

/-- `connection.commit()` -/
def commitConnection (answers : Answers) (connection : Connection) : Watching Unit := do
  note (.used · .commit)
  unseen (Transactions.commitConnection answers connection)
  note .settled

/-- `_commit` -/
def commitTransaction (answers : Answers) : Watching Unit := do
  tryCatch (unseen (remaining answers.beforeCommit)) fun _ => refuse answers .knownNotCommitted
  let watched ← get
  match watched.world.session.connection with
  | none => throw .other
  | some connection =>
      if connection.inError then refuse answers .knownNotCommitted
      else do
        unseen (modify fun world => world.withCommitState .unknownCommit)
        tryCatch (commitConnection answers connection) fun _ =>
          refuse answers .unknownCommit
        unseen (modify fun world => world.withCommitState .knownCommitted)
        tryCatch (unseen (remaining answers.afterCommit)) fun _ =>
          refuse answers .knownCommitted
        tryCatch (release answers false) fun _ => throw (.commitOutcome .knownCommitted)

/-- `connection.rollback()` -/
def rollbackConnection (answers : Answers) : Watching Unit := do
  note (.used · .rollback)
  unseen (wait answers.rollingBack)
  note .settled

/-! ## Calls -/

/-- `begin` -/
def begin (answers : Answers) : Watching Unit :=
  guard answers do
    unseen requireOpen
    let watched ← get
    if !watched.world.session.transactional || watched.world.session.begun then
      throw .transactionState
    else acquireBegin answers

/-- `execute` -/
def execute (answers : Answers) : Watching Unit :=
  guard answers do
    unseen requireOpen
    let watched ← get
    if watched.world.session.transactional then
      if watched.world.session.begun then statement answers else throw .transactionState
    else do
      acquireBegin answers
      tryCatch
        (do
          statement answers
          commitTransaction answers)
        fun error => do
          suppress (release answers true)
          throw error

/-- `commit` -/
def commit (answers : Answers) : Watching Unit :=
  tryCatch
    (guard answers do
      unseen requireTransaction
      commitTransaction answers)
    fun error =>
      match error with
      | .timeout => do
          suppress (release answers true)
          let watched ← get
          throw (.commitOutcome watched.world.session.commitState)
      | error => throw error

/-- `rollback` -/
def rollback (answers : Answers) : Watching Unit :=
  tryCatch
    (guard answers do
      unseen requireTransaction
      rollbackConnection answers
      release answers false)
    fun error => do
      suppress (release answers true)
      throw error

/-- What `close` does with an open connection. -/
def closeConnection (answers : Answers) : Watching Unit :=
  tryCatch
    (guard answers do
      rollbackConnection answers
      release answers false)
    fun error =>
      match error with
      | .timeout => release answers true
      | .commitOutcome _ => release answers true
      | error => do
          release answers true
          throw error

/-- `close` -/
def close (answers : Answers) : Watching Unit := do
  let watched ← get
  if watched.world.session.closed then pure ()
  else do
    tryCatch
      (match watched.world.session.connection with
      | none => pure ()
      | some _ => closeConnection answers)
      fun error => do
        unseen markClosed
        throw error
    unseen markClosed

def serve (call : Call) (answers : Answers) : Watching Unit :=
  match call with
  | .begin => begin answers
  | .execute => execute answers
  | .commit => commit answers
  | .rollback => rollback answers
  | .close => close answers

end Watching

/-- One call, which may return or raise. -/
def Watched.serve (watched : Watched) (call : Call) (answers : Answers) : Watched :=
  match (Watching.serve call answers).run watched with
  | .ok _ after => after
  | .error _ after => after

def Watched.run (watched : Watched) (history : List (Call × Answers)) : Watched :=
  history.foldl (fun watched step => watched.serve step.1 step.2) watched

/-! ## The calls without their log -/

/-- Without the log, the first action is the second. -/
def Erases {α : Type} (watching : Watching α) (action : Action α) : Prop :=
  ∀ watched, match watching.run watched with
    | .ok result after => action.run watched.world = .ok result after.world
    | .error error after => action.run watched.world = .error error after.world

section Erasing

variable {α β : Type}

theorem erases_unseen (action : Action α) : Erases (Watching.unseen action) action := by
  intro watched
  simp only [Watching.unseen, EStateM.run]
  cases equal : action watched.world <;> rfl

theorem erases_pure (result : α) : Erases (pure result) (pure result) := fun _ => rfl

theorem erases_throw (error : Raise) :
    Erases (throw error : Watching α) (throw error) := fun _ => rfl

theorem erases_bind {watching : Watching α} {action : Action α} {next : α → Watching β}
    {next' : α → Action β} (first : Erases watching action)
    (second : ∀ result, Erases (next result) (next' result)) :
    Erases (watching >>= next) (action >>= next') := by
  intro watched
  have ended := first watched
  simp only [EStateM.run, bind, EStateM.bind] at ended ⊢
  cases equal : watching watched with
  | ok result after =>
      rw [equal] at ended
      simp only [ended]
      exact second result after
  | error error after =>
      rw [equal] at ended
      simp only [ended]

theorem erases_note (event : Nat → ConnectionEvent) {watching : Watching β}
    {action : Action β} (next : Erases watching action) :
    Erases (Watching.note event >>= fun _ => watching) action := by
  intro watched
  exact next (watched.note (event watched.obtained))

theorem erases_noted (event : Nat → ConnectionEvent) {watching : Watching Unit}
    {action : Action Unit} (first : Erases watching action) :
    Erases (watching >>= fun _ => Watching.note event) action := by
  intro watched
  have ended := first watched
  simp only [EStateM.run, bind, EStateM.bind] at ended ⊢
  cases equal : watching watched with
  | ok result after =>
      rw [equal] at ended
      exact ended
  | error error after =>
      rw [equal] at ended
      exact ended

theorem erases_get {next : Watched → Watching β} {next' : World → Action β}
    (second : ∀ watched, Erases (next watched) (next' watched.world)) :
    Erases (get >>= next) (get >>= next') :=
  fun watched => second watched watched

theorem erases_tryCatch {watching : Watching α} {action : Action α}
    {handler : Raise → Watching α} {handler' : Raise → Action α}
    (body : Erases watching action) (handled : ∀ error, Erases (handler error) (handler' error)) :
    Erases (tryCatch watching handler) (tryCatch action handler') := by
  intro watched
  have ended := body watched
  simp only [EStateM.run, tryCatch, tryCatchThe, MonadExceptOf.tryCatch,
    EStateM.tryCatch] at ended ⊢
  cases equal : watching watched with
  | ok result after =>
      rw [equal] at ended
      simp only [ended]
  | error error after =>
      rw [equal] at ended
      simp only [ended]
      exact handled error after

theorem erases_suppress {watching : Watching Unit} {action : Action Unit}
    (body : Erases watching action) :
    Erases (Watching.suppress watching) (suppress action) :=
  erases_tryCatch body fun _ => erases_pure ()

variable (answers : Answers)

theorem erases_release (discard : Bool) :
    Erases (Watching.release answers discard) (release answers discard) := by
  apply erases_get
  intro watched
  apply erases_bind (erases_unseen _)
  intro _
  cases watched.world.session.connection with
  | none => exact erases_pure ()
  | some connection =>
      cases discard with
      | true =>
          exact erases_note _ (erases_bind (erases_unseen _) fun _ =>
            erases_note _ (erases_unseen _))
      | false => exact erases_bind (erases_pure ()) fun _ => erases_note _ (erases_unseen _)

theorem erases_discard {error : Raise} :
    Erases (Watching.suppress (Watching.release answers true) >>= fun _ => throw error :
        Watching Unit)
      (suppress (release answers true) >>= fun _ => throw error) :=
  erases_bind (erases_suppress (erases_release answers true)) fun _ => erases_throw _

theorem erases_acquireBegin : Erases (Watching.acquireBegin answers) (acquireBegin answers) := by
  apply erases_bind (erases_unseen _)
  intro _
  cases acquire answers.attempts with
  | error failure => exact erases_throw _
  | ok _ =>
      have obtained : Erases (modify Watched.obtain) (modify fun world =>
          world.withConnection (some ⟨0, false⟩)) := fun _ => rfl
      apply erases_bind obtained
      intro _
      apply erases_tryCatch
      · apply erases_bind (erases_unseen _)
        intro _
        apply erases_note
        apply erases_bind (erases_unseen _)
        intro _
        apply erases_bind (erases_unseen _)
        intro _
        exact erases_bind (erases_unseen _) fun _ => erases_unseen _
      · exact fun _ => erases_discard answers

theorem erases_statement : Erases (Watching.statement answers) (statement answers) :=
  erases_note _ (erases_unseen _)

theorem erases_refuse (state : CommitState) :
    Erases (Watching.refuse answers state) (refuse answers state) :=
  erases_discard answers

theorem erases_commitTransaction :
    Erases (Watching.commitTransaction answers) (commitTransaction answers) := by
  apply erases_bind (erases_tryCatch (erases_unseen _) fun _ => erases_refuse answers _)
  intro _
  apply erases_get
  intro watched
  cases watched.world.session.connection with
  | none => exact erases_throw _
  | some connection =>
      dsimp only
      split
      · exact erases_refuse answers _
      · have committed : Erases (Watching.commitConnection answers connection)
            (commitConnection answers connection) :=
          erases_note _ (erases_noted _ (erases_unseen _))
        apply erases_bind (erases_unseen _)
        intro _
        apply erases_bind (erases_tryCatch committed fun _ => erases_refuse answers _)
        intro _
        apply erases_bind (erases_unseen _)
        intro _
        apply erases_bind (erases_tryCatch (erases_unseen _) fun _ => erases_refuse answers _)
        intro _
        exact erases_tryCatch (erases_release answers false) fun _ => erases_throw _

theorem erases_rollbackConnection :
    Erases (Watching.rollbackConnection answers) (wait answers.rollingBack) :=
  erases_note _ (erases_noted _ (erases_unseen _))

theorem erases_guard {body : Watching Unit} {body' : Action Unit} (erases : Erases body body') :
    Erases (Watching.guard answers body) (guard answers body') :=
  erases_bind (erases_unseen _) fun _ => erases

theorem erases_begin : Erases (Watching.begin answers) (begin answers) := by
  apply erases_guard
  apply erases_bind (erases_unseen _)
  intro _
  apply erases_get
  intro watched
  split
  · exact erases_throw _
  · exact erases_acquireBegin answers

theorem erases_execute : Erases (Watching.execute answers) (execute answers) := by
  apply erases_guard
  apply erases_bind (erases_unseen _)
  intro _
  apply erases_get
  intro watched
  split
  · split
    · exact erases_statement answers
    · exact erases_throw _
  · apply erases_bind (erases_acquireBegin answers)
    intro _
    apply erases_tryCatch
    · exact erases_bind (erases_statement answers) fun _ => erases_commitTransaction answers
    · exact fun _ => erases_discard answers

theorem erases_commit : Erases (Watching.commit answers) (commit answers) := by
  apply erases_tryCatch
  · apply erases_guard
    exact erases_bind (erases_unseen _) fun _ => erases_commitTransaction answers
  · intro error
    cases error with
    | timeout =>
        apply erases_bind (erases_suppress (erases_release answers true))
        intro _
        exact erases_get fun _ => erases_throw _
    | _ => exact erases_throw _

theorem erases_rollback : Erases (Watching.rollback answers) (rollback answers) := by
  apply erases_tryCatch
  · apply erases_guard
    apply erases_bind (erases_unseen _)
    intro _
    exact erases_bind (erases_rollbackConnection answers) fun _ => erases_release answers false
  · exact fun _ => erases_discard answers

theorem erases_closeConnection :
    Erases (Watching.closeConnection answers) (closeConnection answers) := by
  apply erases_tryCatch
  · apply erases_guard
    exact erases_bind (erases_rollbackConnection answers) fun _ => erases_release answers false
  · intro error
    cases error with
    | timeout => exact erases_release answers true
    | commitOutcome state => exact erases_release answers true
    | _ => exact erases_bind (erases_release answers true) fun _ => erases_throw _

theorem erases_close : Erases (Watching.close answers) (close answers) := by
  apply erases_get
  intro watched
  split
  · exact erases_pure ()
  · refine erases_bind (erases_tryCatch ?_ fun _ => ?_) fun _ => erases_unseen _
    · cases watched.world.session.connection with
      | none => exact erases_pure ()
      | some connection => exact erases_closeConnection answers
    · exact erases_bind (erases_unseen _) fun _ => erases_throw _

theorem erases_serve (call : Call) : Erases (Watching.serve call answers) (serve call answers) := by
  cases call with
  | begin => exact erases_begin answers
  | execute => exact erases_execute answers
  | commit => exact erases_commit answers
  | rollback => exact erases_rollback answers
  | close => exact erases_close answers

/-- A call leaves the world that the call without the log leaves. -/
theorem Watched.serve_world (watched : Watched) (call : Call) :
    (watched.serve call answers).world = (watched.world.serve call answers).after := by
  have erases := erases_serve answers call watched
  unfold Watched.serve World.serve
  cases ended : (Watching.serve call answers).run watched with
  | ok result after =>
      rw [ended] at erases
      dsimp only at erases
      rw [erases]
  | error error after =>
      rw [ended] at erases
      dsimp only at erases
      rw [erases]

end Erasing

end MeridianPostgreSQL.Transactions
