import Mathlib.Data.List.Defs
import MeridianPostgreSQL.Foundation.Exceptions

/-! # Adapter sessions

`PostgreSQLAdapterSession`: one connection and one transaction at a time, and
what each call reports about the commit. The clock, the pool, the driver and
the server answer every call as they like. -/

namespace MeridianPostgreSQL.Transactions

inductive CommitState where
  | knownNotCommitted
  | unknownCommit
  | knownCommitted
deriving DecidableEq, Repr

/-- What a call may raise. A commit outcome is a timeout of its own kind. -/
inductive Raise where
  | timeout
  | commitOutcome (state : CommitState)
  | transactionState
  | runtimeClosed
  | other
deriving DecidableEq

/-- What the pool, the driver or a statement may raise. -/
inductive Failure where
  | timeout
  | other
deriving DecidableEq

def Failure.raise : Failure → Raise
  | .timeout => .timeout
  | .other => .other

/-! ## The world -/

/-- A connection and its transaction, zero before `BEGIN`. -/
structure Connection where
  transaction : Nat
  inError : Bool
deriving DecidableEq

structure Session where
  transactional : Bool
  connection : Option Connection
  begun : Bool
  closed : Bool
  commitState : CommitState
deriving DecidableEq

/-- The transactions begun for the session are numbered from one. A commit is
dispatched when the driver takes it. -/
structure Server where
  begun : Nat
  dispatched : List Nat
  acknowledged : List Nat
deriving DecidableEq

structure World where
  session : Session
  server : Server
deriving DecidableEq

def World.initial (transactional : Bool) : World where
  session := ⟨transactional, none, false, false, .knownNotCommitted⟩
  server := ⟨0, [], []⟩

/-- One turn of the loop that asks the pool for a connection. -/
inductive Attempt where
  | expired
  | poolTimeout
  | raised (failure : Failure)
  | connected
deriving DecidableEq

/-- What one call meets: whether its budget is live at each check, and what
each wait ends with. -/
structure Answers where
  admitted : Bool
  acquiring : Bool
  attempts : List Attempt
  beforeBegin : Bool
  beginning : Option Failure
  afterBegin : Bool
  statement : Option Failure
  inError : Bool
  beforeCommit : Bool
  committing : Option Failure
  afterCommit : Bool
  rollingBack : Option Failure
  closing : Option Failure
  returning : Option Failure
deriving DecidableEq

abbrev Action := EStateM Raise World

/-! ## Steps of a call -/

/-- `budget.remaining()` -/
def remaining (live : Bool) : Action Unit :=
  if live then pure () else throw .timeout

def wait (answer : Option Failure) : Action Unit :=
  match answer with
  | none => pure ()
  | some failure => throw failure.raise

def World.withSession (world : World) (session : Session) : World :=
  { world with session := session }

def World.withConnection (world : World) (connection : Option Connection) : World :=
  world.withSession { world.session with connection := connection }

def World.withCommitState (world : World) (state : CommitState) : World :=
  world.withSession { world.session with commitState := state }

/-- The session without its connection. -/
def World.released (world : World) : World :=
  world.withSession { world.session with connection := none, begun := false }

/-- `BEGIN` is acknowledged. -/
def World.begin (world : World) : World where
  session := { world.session with connection := some ⟨world.server.begun + 1, false⟩ }
  server := { world.server with begun := world.server.begun + 1 }

/-- The driver takes the `COMMIT` of a transaction. -/
def World.dispatch (world : World) (transaction : Nat) : World :=
  { world with server :=
    { world.server with dispatched := world.server.dispatched ++ [transaction] } }

/-- The server acknowledges a `COMMIT`; of an aborted transaction it
acknowledges a rollback. -/
def World.acknowledge (world : World) (connection : Connection) : World :=
  if connection.inError then world
  else { world with server :=
    { world.server with
      acknowledged := world.server.acknowledged ++ [connection.transaction] } }

/-- `with suppress(BaseException)` -/
def suppress (action : Action Unit) : Action Unit :=
  tryCatch action fun _ => pure ()

/-- `_release` -/
def release (answers : Answers) (discard : Bool) : Action Unit := do
  let world ← get
  modify World.released
  match world.session.connection with
  | none => pure ()
  | some _ => do
      if discard then wait answers.closing else pure ()
      wait answers.returning

/-- `_guard` -/
def guard (answers : Answers) (body : Action Unit) : Action Unit := do
  remaining answers.admitted
  body

/-- The loop of `_acquire_begin`, which ends when no time is left. -/
def acquire : List Attempt → Except Failure Unit
  | [] => .error .timeout
  | .expired :: _ => .error .timeout
  | .poolTimeout :: rest => acquire rest
  | .raised failure :: _ => .error failure
  | .connected :: _ => .ok ()

/-- `_acquire_begin` -/
def acquireBegin (answers : Answers) : Action Unit := do
  remaining answers.acquiring
  match acquire answers.attempts with
  | .error failure => throw failure.raise
  | .ok _ => do
      modify fun world => world.withConnection (some ⟨0, false⟩)
      tryCatch
        (do
          remaining answers.beforeBegin
          wait answers.beginning
          modify World.begin
          remaining answers.afterBegin
          modify fun world => world.withSession { world.session with begun := true })
        fun error => do
          suppress (release answers true)
          throw error

/-- `_require_open` -/
def requireOpen : Action Unit := do
  let world ← get
  if world.session.closed then throw .runtimeClosed else pure ()

/-- `_require_transaction` -/
def requireTransaction : Action Unit := do
  requireOpen
  let world ← get
  if world.session.transactional && world.session.begun &&
      world.session.connection.isSome then pure ()
  else throw .transactionState

/-- `_execute`, which may leave the transaction aborted. -/
def statement (answers : Answers) : Action Unit := do
  modify fun world => world.withConnection
    (world.session.connection.map fun connection =>
      { connection with inError := answers.inError })
  wait answers.statement

def refuse (answers : Answers) (state : CommitState) : Action Unit := do
  suppress (release answers true)
  throw (.commitOutcome state)

/-- `connection.commit()` -/
def commitConnection (answers : Answers) (connection : Connection) : Action Unit := do
  modify fun world => world.dispatch connection.transaction
  wait answers.committing
  modify fun world => world.acknowledge connection

/-- `_commit` -/
def commitTransaction (answers : Answers) : Action Unit := do
  tryCatch (remaining answers.beforeCommit) fun _ => refuse answers .knownNotCommitted
  let world ← get
  match world.session.connection with
  | none => throw .other
  | some connection =>
      if connection.inError then refuse answers .knownNotCommitted
      else do
        modify fun world => world.withCommitState .unknownCommit
        tryCatch (commitConnection answers connection) fun _ =>
          refuse answers .unknownCommit
        modify fun world => world.withCommitState .knownCommitted
        tryCatch (remaining answers.afterCommit) fun _ => refuse answers .knownCommitted
        tryCatch (release answers false) fun _ => throw (.commitOutcome .knownCommitted)

/-! ## Calls -/

/-- `begin` -/
def begin (answers : Answers) : Action Unit :=
  guard answers do
    requireOpen
    let world ← get
    if !world.session.transactional || world.session.begun then throw .transactionState
    else acquireBegin answers

/-- `execute` -/
def execute (answers : Answers) : Action Unit :=
  guard answers do
    requireOpen
    let world ← get
    if world.session.transactional then
      if world.session.begun then statement answers else throw .transactionState
    else do
      acquireBegin answers
      tryCatch
        (do
          statement answers
          commitTransaction answers)
        fun error => do
          suppress (release answers true)
          throw error

/-- `commit` -/
def commit (answers : Answers) : Action Unit :=
  tryCatch
    (guard answers do
      requireTransaction
      commitTransaction answers)
    fun error =>
      match error with
      | .timeout => do
          suppress (release answers true)
          let world ← get
          throw (.commitOutcome world.session.commitState)
      | error => throw error

/-- `rollback` -/
def rollback (answers : Answers) : Action Unit :=
  tryCatch
    (guard answers do
      requireTransaction
      wait answers.rollingBack
      release answers false)
    fun error => do
      suppress (release answers true)
      throw error

/-- What `close` does with an open connection. -/
def closeConnection (answers : Answers) : Action Unit :=
  tryCatch
    (guard answers do
      wait answers.rollingBack
      release answers false)
    fun error =>
      match error with
      | .timeout => release answers true
      | .commitOutcome _ => release answers true
      | error => do
          release answers true
          throw error

def markClosed : Action Unit :=
  modify fun world => world.withSession { world.session with closed := true }

/-- `close` -/
def close (answers : Answers) : Action Unit := do
  let world ← get
  if world.session.closed then pure ()
  else do
    tryCatch
      (match world.session.connection with
      | none => pure ()
      | some _ => closeConnection answers)
      fun error => do
        markClosed
        throw error
    markClosed

inductive Call where
  | begin
  | execute
  | commit
  | rollback
  | close
deriving DecidableEq

def serve (call : Call) (answers : Answers) : Action Unit :=
  match call with
  | .begin => begin answers
  | .execute => execute answers
  | .commit => commit answers
  | .rollback => rollback answers
  | .close => close answers

/-! ## Reports -/

/-- Whether the call returns only after it commits. -/
def Call.finishes (call : Call) (transactional : Bool) : Bool :=
  match call with
  | .commit => true
  | .execute => !transactional
  | _ => false

/-- What a call that ended says of the commit. -/
def reported (call : Call) (transactional : Bool) (raised : Option Raise) :
    Option CommitState :=
  match raised with
  | some (.commitOutcome state) => some state
  | some _ => none
  | none => if call.finishes transactional then some .knownCommitted else none

structure Served where
  report : Option CommitState
  after : World
deriving DecidableEq

/-- One call, with its report and the world it leaves. -/
def World.serve (world : World) (call : Call) (answers : Answers) : Served :=
  match (Transactions.serve call answers).run world with
  | .ok _ after => ⟨reported call world.session.transactional none, after⟩
  | .error error after =>
      ⟨reported call world.session.transactional (some error), after⟩

/-- The world after a sequence of calls. -/
def World.run (world : World) (history : List (Call × Answers)) : World :=
  history.foldl (fun world step => (world.serve step.1 step.2).after) world

end MeridianPostgreSQL.Transactions
