import MeridianPostgreSQL.Foundation.ReadCommitted
import MeridianPostgreSQL.Json

/-! # Evidence appends

`PostgreSQLAdapterSession._execute_append` and the transactions around it. An
append claims its replay key, inserts its records and stores its result, all
under one savepoint. -/

namespace MeridianPostgreSQL.Evidence

open ReadCommitted

/-! ## Tables -/

/-- The primary key of a record: its table and the values of the scope and
identity columns. -/
structure RecordKey where
  resource : String
  columns : List Json
deriving DecidableEq

structure RecordRow where
  values : Json.Object
  insertedAt : Int

/-- A row of `__meridian_evidence_replay`. -/
structure ReplayRow where
  requestFingerprint : String
  result : Option Json

inductive EvidenceKey where
  | replay (key : String)
  | record (key : RecordKey)
deriving DecidableEq

abbrev EvidenceRow : EvidenceKey → Type
  | .replay _ => ReplayRow
  | .record _ => RecordRow

abbrev EvidenceStore := Store EvidenceRow

/-! ## Requests -/

/-- The parts of an `ExecutionRequest` an append reads. The deadline is the
one of its `OperationContext`. -/
structure AppendRequest where
  bindingId : String
  principalRef : Json
  tenant : Json
  scope : Json.Object
  contextKey : Option String
  deadline : Option Int
  operationContract : String
  idempotent : Bool
  requestFingerprint : String
  input : Json.Object

/-- One compiled `INSERT … RETURNING`. -/
structure AppendCommand where
  key : RecordKey
  values : Json.Object

/-- A single command, or the commands of an `AppendBatchCommand`. -/
structure AppendCommands where
  batch : Bool
  first : AppendCommand
  rest : List AppendCommand

def AppendCommands.all (commands : AppendCommands) : List AppendCommand :=
  commands.first :: commands.rest

inductive AppendError where
  | deadline (message : String)
  | invalid (message : String)
  | transactionState (message : String)
  | idempotencyConflict (message : String)
  | resultLimit (message : String)
  | encoding
  | driver

/-- The data of a response, and the rows the append inserted for it. -/
structure AppendResult where
  data : Json
  replay : Bool
  rows : List (RecordKey × RecordRow)

/-- The Binding and the limits of a session. -/
structure EvidenceSession where
  bindingId : String
  operationTimeout : Int
  maxResultBytes : Nat

/-- What the sessions take from elsewhere: the operation compiler of a
request's Binding, the released fingerprint, the JSON encoder and PostgreSQL's
`RETURNING` and `jsonb` columns. -/
structure EvidenceRuntime where
  compile : AppendRequest → Except String AppendCommands
  sha256Fingerprint : Json → String
  encodedSize : Json → Option Nat
  returning : RecordRow → Json
  column : Json.Column

abbrev EvidenceProgram := Program EvidenceRow AppendError

/-! ## Replay keys -/

/-- The released identities of the records, if every record has one. -/
def recordIdentities (input : Json.Object) : Option Json :=
  let records : List Json :=
    match Json.get input "data" with
    | some (.object members) => [.object members]
    | some (.array items) => items
    | _ => []
  let identities : List Json.Object := records.filterMap fun
    | .object members => some (["evidenceId", "checkpointKey"].filterMap fun name =>
        (Json.get members name).map fun value => (name, value))
    | _ => none
  if !records.isEmpty && (identities.length == records.length &&
      identities.all fun identity => !identity.isEmpty) then
    some (.object [("recordIdentities", .array (identities.map .object))])
  else none

/-- The key of the operation input or context, or of the records. -/
def idempotencyKey (request : AppendRequest) : Option Json :=
  let given :=
    match Json.get request.input "idempotencyKey" with
    | some key => if key.truthy then some key else request.contextKey.map .string
    | none => request.contextKey.map .string
  match given with
  | some key => some key
  | none => if request.idempotent then recordIdentities request.input else none

def replayKey (runtime : EvidenceRuntime) (commands : AppendCommands)
    (request : AppendRequest) : Option String :=
  (idempotencyKey request).map fun key => runtime.sha256Fingerprint (.object [
    ("binding", .string request.bindingId),
    ("principal", request.principalRef),
    ("tenant", request.tenant),
    ("scope", .object request.scope),
    ("resource", .string commands.first.key.resource),
    ("contract", .string request.operationContract),
    ("key", key)])

/-! ## Statements -/

abbrev writeReplay (key : String) (change : Option ReplayRow → Change ReplayRow) :
    EvidenceProgram (Change ReplayRow) :=
  Program.write (EvidenceKey.replay key) change

abbrev writeRecord (key : RecordKey) (change : Option RecordRow → Change RecordRow) :
    EvidenceProgram (Change RecordRow) :=
  Program.write (EvidenceKey.record key) change

/-- Insert a row under a free key. -/
def insertRow {α : Type} (row : α) (existing : Option α) : Change α :=
  match existing with
  | none => .put row
  | some _ => .keep

/-- `UPDATE … SET result` -/
def storeResult (data : Json) (existing : Option ReplayRow) : Change ReplayRow :=
  match existing with
  | none => .keep
  | some row => .put { row with result := some data }

/-! ## Execution -/

def AppendRequest.expired (request : AppendRequest) (reading : Int) : Bool :=
  match request.deadline with
  | none => false
  | some deadline => deadline ≤ reading

/-- The loop over the commands. A record whose primary key is taken fails its
insert. -/
def insertRecords (request : AppendRequest) (deadline : Int) :
    List AppendCommand → EvidenceProgram (List (RecordKey × RecordRow))
  | [] => pure []
  | command :: rest => do
      let reading ← Program.timestamp
      if decide (deadline ≤ reading) || request.expired reading then
        Program.fail (.deadline "Evidence append deadline exceeded")
      else
        Program.unlessRefused .driver
        let insertedAt ← Program.timestamp
        let made ← writeRecord command.key (insertRow ⟨command.values, insertedAt⟩)
        match made with
        | .put row =>
            let others ← insertRecords request deadline rest
            pure ((command.key, row) :: others)
        | _ => Program.fail .driver

/-- The result of an append: a list for a batch, one object otherwise. -/
def appendData (runtime : EvidenceRuntime) (commands : AppendCommands)
    (rows : List (RecordKey × RecordRow)) : Json :=
  let returned := rows.map fun row => runtime.returning row.2
  if commands.batch then .array returned else returned.headD .null

def resultTooLarge : AppendError :=
  .resultLimit "PostgreSQL result exceeds the configured byte limit"

/-- The encoded size check, made under the savepoint and again outside it. -/
def checkSize (runtime : EvidenceRuntime) (session : EvidenceSession) (data : Json) :
    EvidenceProgram Unit :=
  match runtime.encodedSize data with
  | none => .fail .encoding
  | some size =>
      if session.maxResultBytes < size then .fail resultTooLarge else pure ()

def appendRecords (runtime : EvidenceRuntime) (session : EvidenceSession)
    (commands : AppendCommands) (request : AppendRequest) (deadline : Int)
    (key : Option String) : EvidenceProgram AppendResult := do
  let rows ← insertRecords request deadline commands.all
  let data := appendData runtime commands rows
  checkSize runtime session data
  match key with
  | none => pure ⟨data, false, rows⟩
  | some key =>
      Program.unlessRefused .driver
      let _ ← writeReplay key (storeResult data)
      pure ⟨data, false, rows⟩

def replayConflict : AppendError :=
  .idempotencyConflict "Evidence idempotency key has a different request fingerprint"

/-- The result stored for the key, for a request with the same fingerprint. -/
def replayed (runtime : EvidenceRuntime) (request : AppendRequest)
    (previous : Option ReplayRow) : EvidenceProgram AppendResult :=
  match previous with
  | none => .fail replayConflict
  | some row =>
      match row.result with
      | none => .fail replayConflict
      | some data =>
          if row.requestFingerprint ≠ request.requestFingerprint then
            .fail replayConflict
          else pure ⟨runtime.column.load data, true, []⟩

/-- The body under the savepoint. -/
def appendBody (runtime : EvidenceRuntime) (session : EvidenceSession)
    (commands : AppendCommands) (request : AppendRequest) (deadline : Int) :
    EvidenceProgram AppendResult :=
  match replayKey runtime commands request with
  | none => appendRecords runtime session commands request deadline none
  | some key => do
      Program.unlessRefused .driver
      let claimed ← writeReplay key (insertRow ⟨request.requestFingerprint, none⟩)
      match claimed with
      | .put _ => appendRecords runtime session commands request deadline (some key)
      | _ =>
          Program.unlessRefused .driver
          let store : EvidenceStore ← Program.select
          replayed runtime request (store (.replay key))

/-- `_execute_append` -/
def executeAppend (runtime : EvidenceRuntime) (session : EvidenceSession)
    (transactional : Bool) (commands : AppendCommands) (request : AppendRequest) :
    EvidenceProgram AppendResult :=
  if Json.get request.input "requireAtomic" = some (.bool true) ∧ transactional = false then
    .fail (.transactionState
      "required Evidence append must join an explicit Binding transaction")
  else do
    let started ← Program.timestamp
    Program.transaction (appendBody runtime session commands request
      (started + session.operationTimeout))

/-- `_execute` of an append. -/
def execute (runtime : EvidenceRuntime) (session : EvidenceSession)
    (transactional : Bool) (request : AppendRequest) : EvidenceProgram AppendResult := do
  let reading ← Program.timestamp
  if request.expired reading then
    Program.fail (.deadline "operation deadline expired before PostgreSQL execution")
  else if request.bindingId ≠ session.bindingId then
    Program.fail (.invalid "execution request belongs to a different Binding")
  else
    match runtime.compile request with
    | .error message => .fail (.invalid message)
    | .ok commands => do
        let result ← executeAppend runtime session transactional commands request
        checkSize runtime session result.data
        pure result

/-! ## Transactions -/

/-- A request and what the session answered. -/
structure Answer where
  request : AppendRequest
  outcome : Except AppendError AppendResult

/-- A session without an explicit transaction commits each request. -/
def singleAppend (runtime : EvidenceRuntime) (session : EvidenceSession)
    (request : AppendRequest) : EvidenceProgram (List Answer) := do
  let result ← execute runtime session false request
  pure [⟨request, .ok result⟩]

/-- The requests of an explicit transaction, whose failures the caller may
catch. -/
def explicitAppends (runtime : EvidenceRuntime) (session : EvidenceSession) :
    List AppendRequest → EvidenceProgram (List Answer)
  | [] => pure []
  | request :: rest => do
      let outcome ← Program.attempt (execute runtime session true request)
      let answers ← explicitAppends runtime session rest
      pure (⟨request, outcome⟩ :: answers)

/-- The transactions in which appends execute, from any session. -/
inductive AppendTransaction (runtime : EvidenceRuntime) :
    EvidenceProgram (List Answer) → Prop
  | single (session : EvidenceSession) (request : AppendRequest) :
      AppendTransaction runtime (singleAppend runtime session request)
  | explicit (session : EvidenceSession) (requests : List AppendRequest) :
      AppendTransaction runtime (explicitAppends runtime session requests)

end MeridianPostgreSQL.Evidence
