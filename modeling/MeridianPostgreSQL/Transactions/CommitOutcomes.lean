import MeridianPostgreSQL.Transactions.Session

/-! # Commit outcomes

What the calls of a session may do to its transaction, and when their reports
and `commit_state` are true of the latest transaction. -/

namespace MeridianPostgreSQL.Transactions

/-- True of the latest transaction begun for the session. -/
def CommitState.Describes (state : CommitState) (server : Server) : Prop :=
  match state with
  | .knownCommitted => server.begun ∈ server.acknowledged
  | .knownNotCommitted => server.begun ∉ server.dispatched
  | .unknownCommit =>
      server.begun ∈ server.dispatched ∧ server.begun ∉ server.acknowledged

instance (state : CommitState) (server : Server) : Decidable (state.Describes server) := by
  cases state <;> unfold CommitState.Describes <;> infer_instance

/-- A report is true of the latest transaction, a call that dispatches a commit
reports on it, and so does `commit_state` afterwards. -/
structure Sound (before : World) (served : Served) : Prop where
  report : ∀ state, served.report = some state → state.Describes served.after.server
  dispatched : served.report = none →
    served.after.server.dispatched = before.server.dispatched
  commitState : served.after.session.commitState.Describes served.after.server

/-! ## Beginnings -/

/-- The server acknowledges `BEGIN`. -/
def Answers.acquires (answers : Answers) : Bool :=
  answers.acquiring && (acquire answers.attempts).isOk && answers.beforeBegin &&
    answers.beginning.isNone

/-- Nothing keeps an execution from its commit once its transaction began. -/
def Answers.reachesCommit (answers : Answers) : Bool :=
  answers.afterBegin && answers.statement.isNone && !answers.inError &&
    answers.beforeCommit

def Session.begins (session : Session) (call : Call) (answers : Answers) : Bool :=
  !session.closed && answers.admitted && answers.acquires &&
    match call with
    | .begin => session.transactional && !session.begun
    | .execute => !session.transactional
    | _ => false

/-- A call that begins a transaction finds `commit_state` as a new session has
it, or brings the transaction to its commit itself. -/
def Fresh (world : World) (call : Call) (answers : Answers) : Prop :=
  world.session.begins call answers = true →
    world.session.commitState = .knownNotCommitted ∨
      (call = .execute ∧ answers.reachesCommit = true)

/-! ## Releases -/

def Raise.Plain (error : Raise) : Prop := ∀ state, error ≠ .commitOutcome state

theorem Failure.raise_plain (failure : Failure) : failure.raise.Plain := by
  intro state
  cases failure <;> exact Raise.noConfusion

@[simp] theorem released_released (world : World) : world.released.released = world.released :=
  rfl

theorem ends_wait {answer : Option Failure} {world : World}
    {returned : Unit → World → Prop} {raised : Raise → World → Prop}
    (finished : answer = none → returned () world)
    (failed : ∀ failure, answer = some failure → raised failure.raise world) :
    Ends (wait answer) world returned raised := by
  cases answer with
  | none => exact finished rfl
  | some failure => exact failed failure rfl

theorem ends_remaining {live : Bool} {world : World}
    {returned : Unit → World → Prop} {raised : Raise → World → Prop}
    (finished : live = true → returned () world)
    (failed : live = false → raised .timeout world) :
    Ends (remaining live) world returned raised := by
  cases live with
  | true => exact finished rfl
  | false => exact failed rfl

theorem ends_release (answers : Answers) (discard : Bool) (world : World) :
    Ends (release answers discard) world (fun _ after => after = world.released)
      (fun error after => error.Plain ∧ after = world.released) := by
  unfold release
  rw [ends_bind, ends_get, ends_bind, ends_modify]
  have returning : Ends (wait answers.returning) world.released
      (fun _ after => after = world.released)
      (fun error after => error.Plain ∧ after = world.released) :=
    ends_wait (fun _ => rfl) fun failure _ => ⟨failure.raise_plain, rfl⟩
  cases world.session.connection with
  | none => exact ends_pure.mpr rfl
  | some connection =>
      cases discard with
      | false => exact returning
      | true =>
          apply ends_bind.mpr
          exact ends_wait (fun _ => returning) fun failure _ => ⟨failure.raise_plain, rfl⟩

theorem ends_suppress {world : World} {returned : Unit → World → Prop}
    {raised : Raise → World → Prop} {answers : Answers} {discard : Bool}
    (finished : returned () world.released) :
    Ends (suppress (release answers discard)) world returned raised := by
  unfold suppress
  rw [ends_tryCatch]
  apply (ends_release answers discard world).mono
  · intro result after same
    exact same ▸ finished
  · intro error after failed
    exact ends_pure.mpr (failed.2 ▸ finished)

theorem ends_refuse {world : World} {returned : Unit → World → Prop}
    {raised : Raise → World → Prop} {answers : Answers} {state : CommitState}
    (failed : raised (.commitOutcome state) world.released) :
    Ends (refuse answers state) world returned raised := by
  unfold refuse
  rw [ends_bind]
  exact ends_suppress failed

/-! ## Commits -/

/-- The driver has the commit. -/
def World.committing (world : World) (transaction : Nat) : World :=
  ((world.withCommitState .unknownCommit).dispatch transaction).released

/-- The server has acknowledged the commit. -/
def World.committed (world : World) (transaction : Nat) : World :=
  ((((world.withCommitState .unknownCommit).dispatch transaction).acknowledge
    ⟨transaction, false⟩).withCommitState .knownCommitted).released

/-- How an attempt to commit ends. -/
inductive CommitEnd (before : World) (transaction : Nat) : CommitState → World → Prop
  | refused : CommitEnd before transaction .knownNotCommitted before.released
  | lost : CommitEnd before transaction .unknownCommit (before.committing transaction)
  | committed : CommitEnd before transaction .knownCommitted (before.committed transaction)

theorem ends_commitTransaction (answers : Answers) {world : World} {connection : Connection}
    (current : world.session.connection = some connection) :
    Ends (commitTransaction answers) world
      (fun _ after => after = world.committed connection.transaction ∧
        answers.beforeCommit = true ∧ connection.inError = false)
      (fun error after => ∃ state, error = .commitOutcome state ∧
        CommitEnd world connection.transaction state after ∧
        (state = .knownNotCommitted ↔
          ¬(answers.beforeCommit = true ∧ connection.inError = false))) := by
  unfold commitTransaction
  rw [ends_bind, ends_tryCatch]
  apply ends_remaining
  · intro live
    rw [ends_bind, ends_get, current]
    dsimp only
    cases aborted : connection.inError with
    | true =>
        rw [if_pos rfl]
        exact ends_refuse ⟨_, rfl, .refused, by simp⟩
    | false =>
        rw [if_neg Bool.false_ne_true, ends_bind, ends_modify, ends_bind, ends_tryCatch]
        unfold commitConnection
        rw [ends_bind, ends_modify, ends_bind]
        apply ends_wait
        · intro _
          have shape : connection = ⟨connection.transaction, false⟩ := by
            rw [← aborted]
          rw [ends_modify, ends_bind, ends_modify, ends_bind, ends_tryCatch, shape]
          apply ends_remaining
          · intro _
            rw [ends_tryCatch]
            apply (ends_release answers false _).mono
            · intro result after same
              exact ⟨same, live, rfl⟩
            · intro error after failed
              rw [ends_throw, failed.2]
              exact ⟨_, rfl, .committed, by simp [live]⟩
          · intro _
            exact ends_refuse ⟨_, rfl, .committed, by simp [live]⟩
        · intro failure _
          exact ends_refuse ⟨_, rfl, .lost, by simp [live]⟩
  · intro expired
    exact ends_refuse ⟨_, rfl, .refused, by simp [expired]⟩

/-! ## Coherence -/

/-- What holds between calls: an open connection has the latest transaction,
whose commit no one has dispatched. -/
structure Coherent (world : World) : Prop where
  active : ∀ connection, world.session.connection = some connection →
    connection.transaction = world.server.begun ∧
    world.server.begun ∉ world.server.dispatched
  begun : world.session.begun = world.session.connection.isSome
  single : world.session.transactional = false → world.session.connection = none
  numbered : ∀ number ∈ world.server.dispatched, number ≤ world.server.begun
  acknowledged : ∀ number ∈ world.server.acknowledged, number ∈ world.server.dispatched

theorem Coherent.initial (transactional : Bool) : Coherent (.initial transactional) where
  active := nofun
  begun := rfl
  single := fun _ => rfl
  numbered := nofun
  acknowledged := nofun

theorem Coherent.released {world : World} (coherent : Coherent world) :
    Coherent world.released where
  active := nofun
  begun := rfl
  single := fun _ => rfl
  numbered := coherent.numbered
  acknowledged := coherent.acknowledged

/-- The session has its new transaction. -/
def World.beginning (world : World) : World :=
  world.begin.withSession { world.begin.session with begun := true }

theorem Coherent.unused {world : World} (coherent : Coherent world) :
    world.server.begun + 1 ∉ world.server.dispatched := by
  intro member
  have bound := coherent.numbered _ member
  omega

theorem Coherent.beginning {world : World} (coherent : Coherent world)
    (transactional : world.session.transactional = true) : Coherent world.beginning where
  active := by
    intro connection same
    cases same
    exact ⟨rfl, coherent.unused⟩
  begun := rfl
  single := by
    intro single
    exact absurd (single.symm.trans transactional) Bool.false_ne_true
  numbered := fun number member => Nat.le_succ_of_le (coherent.numbered number member)
  acknowledged := coherent.acknowledged

theorem Coherent.begin_released {world : World} (coherent : Coherent world) :
    Coherent world.begin.released where
  active := nofun
  begun := rfl
  single := fun _ => rfl
  numbered := fun number member => Nat.le_succ_of_le (coherent.numbered number member)
  acknowledged := coherent.acknowledged

theorem Coherent.idle {world : World} (coherent : Coherent world)
    (begun : world.session.begun = false) : world.released = world := by
  have none : world.session.connection = none := by
    rw [coherent.begun] at begun
    exact Option.isNone_iff_eq_none.mp (by simpa using begun)
  rcases world with ⟨⟨_, _, _, _, _⟩, _⟩
  simp_all [World.released, World.withSession]

/-- A commit that ends leaves the session idle. -/
theorem CommitEnd.coherent {before after : World} {state : CommitState}
    (coherent : Coherent before.released)
    (ended : CommitEnd before before.server.begun state after) : Coherent after := by
  have numbered : ∀ number ∈ before.server.dispatched ++ [before.server.begun],
      number ≤ before.server.begun := by
    intro number member
    rcases List.mem_append.mp member with earlier | last
    · exact coherent.numbered number earlier
    · exact Nat.le_of_eq (List.mem_singleton.mp last)
  cases ended with
  | refused => exact coherent
  | lost =>
      exact ⟨nofun, rfl, fun _ => rfl, numbered,
        fun number member => List.mem_append_left _ (coherent.acknowledged number member)⟩
  | committed =>
      refine ⟨nofun, rfl, fun _ => rfl, numbered, ?_⟩
      intro number member
      rcases List.mem_append.mp member with earlier | last
      · exact List.mem_append_left _ (coherent.acknowledged number earlier)
      · exact List.mem_append_right _ last

/-- The report of a commit that ends is true, and so is `commit_state`, unless
the commit was refused over a state that was not. -/
theorem CommitEnd.describes {before after : World} {state : CommitState}
    (coherent : Coherent before.released)
    (active : before.server.begun ∉ before.server.dispatched)
    (ended : CommitEnd before before.server.begun state after) :
    state.Describes after.server ∧
      (after.session.commitState = state ∨ after = before.released) := by
  cases ended with
  | refused => exact ⟨active, .inr rfl⟩
  | lost =>
      refine ⟨⟨List.mem_append_right _ (List.mem_singleton.mpr rfl), ?_⟩, .inl rfl⟩
      exact fun member => active (coherent.acknowledged _ member)
  | committed =>
      exact ⟨List.mem_append_right _ (List.mem_singleton.mpr rfl), .inl rfl⟩

/-! ## Effects of calls -/

/-- What a call does that begins no transaction. -/
inductive Effect (before : World) : Option CommitState → World → Prop
  | kept (after : World) (server : after.server = before.server)
      (commitState : after.session.commitState = before.session.commitState)
      (coherent : Coherent after) : Effect before none after
  | expired : Effect before (some before.session.commitState) before.released
  | ended (state : CommitState) (after : World)
      (active : before.server.begun ∉ before.server.dispatched)
      (ended : CommitEnd before before.server.begun state after) :
      Effect before (some state) after

/-- What a call does. -/
inductive CallEffect (before : World) (call : Call) (answers : Answers) :
    Option CommitState → World → Prop
  | continued (report : Option CommitState) (after : World)
      (begins : before.session.begins call answers = false)
      (effect : Effect before report after) : CallEffect before call answers report after
  | begun (report : Option CommitState) (after : World)
      (begins : before.session.begins call answers = true)
      (unreached : ¬(call = .execute ∧ answers.reachesCommit = true))
      (report_undone : report = none ∨ report = some .knownNotCommitted)
      (server : after.server = before.begin.server)
      (commitState : after.session.commitState = before.session.commitState)
      (coherent : Coherent after) : CallEffect before call answers report after
  | finished (state : CommitState) (after : World)
      (begins : before.session.begins call answers = true)
      (reached : call = .execute ∧ answers.reachesCommit = true)
      (dispatched : state ≠ .knownNotCommitted)
      (ended : CommitEnd before.beginning before.beginning.server.begun state after) :
      CallEffect before call answers (some state) after

section Calls

variable {world : World} {answers : Answers}

theorem reported_plain {call : Call} {transactional : Bool} {error : Raise}
    (plain : error.Plain) : reported call transactional (some error) = none := by
  cases error with
  | commitOutcome state => exact absurd rfl (plain state)
  | _ => rfl

theorem ends_guard {body : Action Unit} {returned : Unit → World → Prop}
    {raised : Raise → World → Prop}
    (admitted : answers.admitted = true → Ends body world returned raised)
    (expired : answers.admitted = false → raised .timeout world) :
    Ends (guard answers body) world returned raised := by
  unfold guard
  rw [ends_bind]
  exact ends_remaining admitted expired

theorem ends_requireOpen {returned : Unit → World → Prop} {raised : Raise → World → Prop}
    (opened : world.session.closed = false → returned () world)
    (closed : world.session.closed = true → raised .runtimeClosed world) :
    Ends requireOpen world returned raised := by
  unfold requireOpen
  rw [ends_bind, ends_get]
  cases equal : world.session.closed with
  | true => exact closed equal
  | false => exact opened equal

theorem ends_requireTransaction {returned : Unit → World → Prop}
    {raised : Raise → World → Prop}
    (current : ∀ connection, world.session.connection = some connection →
      returned () world)
    (refused : ∀ error : Raise, error.Plain → error ≠ .timeout → raised error world) :
    Ends requireTransaction world returned raised := by
  unfold requireTransaction
  rw [ends_bind]
  apply ends_requireOpen
  · intro _
    rw [ends_bind, ends_get]
    split
    · rename_i held
      have present : world.session.connection.isSome = true := by simp_all
      rcases Option.isSome_iff_exists.mp present with ⟨connection, found⟩
      exact current connection found
    · exact refused .transactionState nofun nofun
  · exact fun _ => refused .runtimeClosed nofun nofun

theorem ends_acquireBegin (idle : world.released = world) :
    Ends (acquireBegin answers) world
      (fun _ after => answers.acquires = true ∧ answers.afterBegin = true ∧
        after = world.beginning)
      (fun error after => error.Plain ∧
        ((answers.acquires = false ∧ after = world) ∨
          (answers.acquires = true ∧ answers.afterBegin = false ∧
            after = world.begin.released))) := by
  unfold acquireBegin Answers.acquires
  rw [ends_bind]
  apply ends_remaining
  · intro acquiring
    rw [acquiring]
    cases acquire answers.attempts with
    | error failure => exact ⟨failure.raise_plain, .inl ⟨rfl, rfl⟩⟩
    | ok _ =>
        dsimp only
        rw [ends_bind, ends_modify, ends_tryCatch, ends_bind]
        apply ends_remaining
        · intro live
          rw [ends_bind]
          apply ends_wait
          · intro begun
            rw [ends_bind, ends_modify, ends_bind]
            apply ends_remaining
            · intro admitted
              exact ends_modify.mpr ⟨by simp [Except.isOk, Except.toBool, live, begun], admitted, rfl⟩
            · intro expired
              rw [ends_bind]
              apply ends_suppress
              exact ⟨nofun, .inr ⟨by simp [Except.isOk, Except.toBool, live, begun], expired, rfl⟩⟩
          · intro failure failed
            rw [ends_bind]
            apply ends_suppress
            exact ⟨failure.raise_plain, .inl ⟨by simp [failed], idle⟩⟩
        · intro expired
          rw [ends_bind]
          apply ends_suppress
          exact ⟨nofun, .inl ⟨by simp [expired], idle⟩⟩
  · intro expired
    exact ⟨nofun, .inl ⟨by simp [expired], rfl⟩⟩

/-! ## One lemma a call -/

/-- A call that ends has an effect. -/
def Affects (before : World) (call : Call) (answers : Answers) : Prop :=
  Ends (serve call answers) before
    (fun _ after => CallEffect before call answers
      (reported call before.session.transactional none) after)
    (fun error after => CallEffect before call answers
      (reported call before.session.transactional (some error)) after)

theorem CallEffect.plain {before after : World} {call : Call} {error : Raise}
    (begins : before.session.begins call answers = false) (plain : error.Plain)
    (effect : Effect before none after) :
    CallEffect before call answers
      (reported call before.session.transactional (some error)) after := by
  rw [reported_plain plain]
  exact .continued none after begins effect

theorem Effect.same {before : World} (coherent : Coherent before) : Effect before none before :=
  .kept before rfl rfl coherent

theorem Effect.released {before : World} (coherent : Coherent before) :
    Effect before none before.released :=
  .kept before.released rfl rfl coherent.released

theorem begin_affects (coherent : Coherent world) : Affects world .begin answers := by
  unfold Affects serve begin
  apply ends_guard
  · intro admitted
    rw [ends_bind]
    apply ends_requireOpen
    · intro opened
      rw [ends_bind, ends_get]
      split
      · rename_i refused
        have begins : world.session.begins .begin answers = false := by
          simp only [Session.begins]
          rcases Bool.or_eq_true_iff.mp refused with single | begun
          · simp_all
          · simp_all
        exact .plain begins nofun (.same coherent)
      · rename_i accepted
        have transactional : world.session.transactional = true := by simp_all
        have begun : world.session.begun = false := by simp_all
        apply (ends_acquireBegin (coherent.idle begun)).mono
        · intro result after met
          rcases met with ⟨acquires, _, rfl⟩
          have begins : world.session.begins .begin answers = true := by
            simp [Session.begins, admitted, opened, acquires, transactional, begun]
          exact .begun none _ begins (fun both => nomatch both.1) (.inl rfl) rfl rfl
            (coherent.beginning transactional)
        · intro error after failed
          rcases failed with ⟨plain, ⟨acquires, rfl⟩ | ⟨acquires, _, rfl⟩⟩
          · have begins : after.session.begins .begin answers = false := by
              simp [Session.begins, acquires]
            exact .plain begins plain (.same coherent)
          · have begins : world.session.begins .begin answers = true := by
              simp [Session.begins, admitted, opened, acquires, transactional, begun]
            rw [reported_plain plain]
            exact .begun none _ begins (fun both => nomatch both.1) (.inl rfl) rfl rfl
              coherent.begin_released
    · intro closed
      have begins : world.session.begins .begin answers = false := by
        simp [Session.begins, closed]
      exact .plain begins nofun (.same coherent)
  · intro expired
    have begins : world.session.begins .begin answers = false := by
      simp [Session.begins, expired]
    exact .plain begins nofun (.same coherent)

theorem commit_affects (coherent : Coherent world) : Affects world .commit answers := by
  have begins : world.session.begins .commit answers = false := by
    simp [Session.begins]
  unfold Affects serve commit
  rw [ends_tryCatch]
  apply ends_guard
  · intro _
    rw [ends_bind]
    apply ends_requireTransaction
    · intro connection current
      rcases coherent.active connection current with ⟨latest, active⟩
      apply (ends_commitTransaction answers current).mono
      · intro result after met
        rw [latest] at met
        rw [met.1]
        exact .continued _ _ begins (.ended _ _ active .committed)
      · intro error after failed
        rcases failed with ⟨state, rfl, ended, _⟩
        rw [latest] at ended
        exact .continued _ _ begins (.ended _ _ active ended)
    · intro error plain timely
      cases error with
      | timeout => exact absurd rfl timely
      | commitOutcome state => exact absurd rfl (plain state)
      | _ => exact .plain begins plain (.same coherent)
  · intro _
    rw [ends_bind]
    apply ends_suppress
    rw [ends_bind, ends_get]
    exact .continued _ _ begins .expired

theorem rollback_affects (coherent : Coherent world) : Affects world .rollback answers := by
  have begins : world.session.begins .rollback answers = false := by
    simp [Session.begins]
  have failed : ∀ {after error}, Raise.Plain error → after.released = world.released →
      Ends (suppress (release answers true) >>= fun _ => throw error : Action Unit) after
        (fun _ final => CallEffect world .rollback answers
          (reported .rollback world.session.transactional none) final)
        (fun error final => CallEffect world .rollback answers
          (reported .rollback world.session.transactional (some error)) final) := by
    intro after error plain same
    rw [ends_bind]
    apply ends_suppress
    rw [same]
    exact .plain begins plain (.released coherent)
  unfold Affects serve rollback
  rw [ends_tryCatch]
  apply ends_guard
  · intro _
    rw [ends_bind]
    apply ends_requireTransaction
    · intro connection _
      rw [ends_bind]
      apply ends_wait
      · intro _
        apply (ends_release answers false world).mono
        · intro result after same
          rw [same]
          exact .continued none _ begins (.released coherent)
        · intro error after stopped
          exact failed stopped.1 (by rw [stopped.2, released_released])
      · exact fun failure _ => failed failure.raise_plain rfl
    · exact fun error plain _ => failed plain rfl
  · exact fun _ => failed nofun rfl

/-- A statement may leave the transaction aborted. -/
def World.withInError (world : World) (inError : Bool) : World :=
  world.withConnection (world.session.connection.map fun connection =>
    { connection with inError := inError })

theorem Coherent.withInError (coherent : Coherent world) (inError : Bool) :
    Coherent (world.withInError inError) where
  active := by
    intro connection found
    rcases Option.map_eq_some_iff.mp found with ⟨earlier, current, rfl⟩
    exact coherent.active earlier current
  begun := by
    rw [World.withInError, World.withConnection, World.withSession, Option.isSome_map]
    exact coherent.begun
  single := by
    intro single
    exact Option.map_eq_none_iff.mpr (coherent.single single)
  numbered := coherent.numbered
  acknowledged := coherent.acknowledged

/-- A session that ends a commit has no connection, whatever it had. -/
theorem CommitEnd.withInError {transaction : Nat} {inError : Bool} {state : CommitState}
    {after : World} (ended : CommitEnd (world.withInError inError) transaction state after) :
    CommitEnd world transaction state after ∧ after.released = after := by
  cases ended with
  | refused => exact ⟨.refused, rfl⟩
  | lost => exact ⟨.lost, rfl⟩
  | committed => exact ⟨.committed, rfl⟩

/-- The statement and the commit of a single execution. -/
theorem execution_affects (coherent : Coherent world)
    (single : world.session.transactional = false)
    (begins : world.session.begins .execute answers = true)
    (live : answers.afterBegin = true) :
    Ends
      (tryCatch (statement answers >>= fun _ => commitTransaction answers) fun error =>
        suppress (release answers true) >>= fun _ => throw error)
      world.beginning
      (fun _ after => CallEffect world .execute answers
        (reported .execute world.session.transactional none) after)
      (fun error after => CallEffect world .execute answers
        (reported .execute world.session.transactional (some error)) after) := by
  unfold statement
  rw [ends_tryCatch, ends_bind, ends_bind, ends_modify]
  change Ends _ (world.beginning.withInError answers.inError) _ _
  have current : (world.beginning.withInError answers.inError).session.connection =
      some ⟨world.beginning.server.begun, answers.inError⟩ := rfl
  apply ends_wait
  · intro succeeded
    have reaches : answers.reachesCommit = true ↔
        answers.beforeCommit = true ∧ answers.inError = false := by
      simp [Answers.reachesCommit, live, succeeded, and_comm]
    apply (ends_commitTransaction answers current).mono
    · intro result after met
      rcases met with ⟨rfl, reached⟩
      rw [show reported .execute world.session.transactional none = some .knownCommitted by
        simp [reported, Call.finishes, single]]
      exact .finished _ _ begins ⟨rfl, reaches.mpr reached⟩ nofun .committed
    · intro error after failed
      rcases failed with ⟨state, rfl, ended, decided⟩
      rcases ended.withInError with ⟨ended, idle⟩
      rw [ends_bind]
      apply ends_suppress
      rw [idle]
      dsimp only at decided ended
      by_cases early : state = .knownNotCommitted
      · have unreached := decided.mp early
        subst early
        cases ended with
        | refused =>
            exact .begun _ _ begins (fun both => unreached (reaches.mp both.2)) (.inr rfl)
              rfl rfl coherent.begin_released
      · have reached := not_not.mp (decided.not.mp early)
        exact .finished _ _ begins ⟨rfl, reaches.mpr reached⟩ early ended
  · intro failure failed
    rw [ends_bind]
    apply ends_suppress
    rw [ends_throw, reported_plain failure.raise_plain]
    exact .begun none _ begins (by simp [Answers.reachesCommit, failed]) (.inl rfl) rfl rfl
      coherent.begin_released

theorem execute_affects (coherent : Coherent world) : Affects world .execute answers := by
  unfold Affects serve execute
  apply ends_guard
  · intro admitted
    rw [ends_bind]
    apply ends_requireOpen
    · intro opened
      rw [ends_bind, ends_get]
      split
      · rename_i transactional
        have begins : world.session.begins .execute answers = false := by
          simp [Session.begins, transactional]
        have report : reported .execute world.session.transactional none = none := by
          simp [reported, Call.finishes, transactional]
        split
        · unfold statement
          rw [ends_bind, ends_modify]
          have kept : Effect world none (world.withInError answers.inError) :=
            .kept _ rfl rfl (coherent.withInError answers.inError)
          apply ends_wait
          · intro _
            rw [report]
            exact .continued none _ begins kept
          · exact fun failure _ => .plain begins failure.raise_plain kept
        · exact .plain begins nofun (.same coherent)
      · rename_i several
        have single : world.session.transactional = false := by simpa using several
        have begun : world.session.begun = false := by
          rw [coherent.begun, coherent.single single]
          rfl
        have begins : answers.acquires = true →
            world.session.begins .execute answers = true := by
          intro acquires
          simp [Session.begins, admitted, opened, acquires, single]
        rw [ends_bind]
        apply (ends_acquireBegin (coherent.idle begun)).mono
        · intro result after met
          rcases met with ⟨acquires, live, rfl⟩
          exact execution_affects coherent single (begins acquires) live
        · intro error after failed
          rcases failed with ⟨plain, ⟨acquires, rfl⟩ | ⟨acquires, late, rfl⟩⟩
          · have idle : after.session.begins .execute answers = false := by
              simp [Session.begins, acquires]
            exact .plain idle plain (.same coherent)
          · rw [reported_plain plain]
            exact .begun none _ (begins acquires) (by simp [Answers.reachesCommit, late])
              (.inl rfl) rfl rfl coherent.begin_released
    · intro closed
      have begins : world.session.begins .execute answers = false := by
        simp [Session.begins, closed]
      exact .plain begins nofun (.same coherent)
  · intro expired
    have begins : world.session.begins .execute answers = false := by
      simp [Session.begins, expired]
    exact .plain begins nofun (.same coherent)

theorem ends_closeConnection :
    Ends (closeConnection answers) world (fun _ after => after = world.released)
      (fun error after => error.Plain ∧ after = world.released) := by
  unfold closeConnection
  rw [ends_tryCatch]
  refine Ends.mono (?_ : Ends _ world (fun _ after => after = world.released)
    fun error after => error.Plain ∧ after.released = world.released) (fun _ _ same => same) ?_
  · apply ends_guard
    · intro _
      rw [ends_bind]
      apply ends_wait
      · intro _
        apply (ends_release answers false world).mono (fun _ _ same => same)
        rintro error after ⟨plain, rfl⟩
        exact ⟨plain, released_released world⟩
      · exact fun failure _ => ⟨failure.raise_plain, rfl⟩
    · intro _
      exact ⟨fun _ => Raise.noConfusion, rfl⟩
  · rintro error after ⟨plain, same⟩
    have released := same ▸ ends_release answers true after
    cases error with
    | timeout => exact released
    | commitOutcome state => exact released
    | _ =>
        rw [ends_bind]
        exact released.mono (fun _ _ reached => ends_throw.mpr ⟨plain, reached⟩)
          fun _ _ failed => failed

theorem Coherent.closed (coherent : Coherent world) :
    Coherent (world.withSession { world.session with closed := true }) :=
  ⟨coherent.active, coherent.begun, coherent.single, coherent.numbered,
    coherent.acknowledged⟩

theorem close_affects (coherent : Coherent world) : Affects world .close answers := by
  have begins : world.session.begins .close answers = false := by
    simp [Session.begins]
  unfold Affects serve close
  rw [ends_bind, ends_get]
  split
  · exact .continued none _ begins (.same coherent)
  · rw [ends_bind, ends_tryCatch]
    have closed : ∀ {after : World}, after = world ∨ after = world.released →
        Effect world none (after.withSession { after.session with closed := true }) := by
      intro after same
      rcases same with rfl | rfl
      · exact .kept _ rfl rfl coherent.closed
      · exact .kept _ rfl rfl coherent.released.closed
    split
    · exact .continued none _ begins (closed (.inl rfl))
    · apply ends_closeConnection.mono
      · intro result after released
        exact .continued none _ begins (closed (.inr released))
      · intro error after failed
        rw [ends_bind]
        exact .plain begins failed.1 (closed (.inr failed.2))

theorem serve_affects (coherent : Coherent world) (call : Call) :
    Affects world call answers := by
  cases call with
  | begin => exact begin_affects coherent
  | execute => exact execute_affects coherent
  | commit => exact commit_affects coherent
  | rollback => exact rollback_affects coherent
  | close => exact close_affects coherent

theorem serve_effect (coherent : Coherent world) (call : Call) :
    CallEffect world call answers (world.serve call answers).report
      (world.serve call answers).after := by
  have affects : Affects world call answers := serve_affects coherent call
  unfold Affects Ends at affects
  unfold World.serve
  cases ended : (serve call answers).run world with
  | ok result after =>
      rw [ended] at affects
      exact affects
  | error error after =>
      rw [ended] at affects
      exact affects

end Calls

/-! ## Soundness -/

theorem Effect.sound {before after : World} {report : Option CommitState}
    (coherent : Coherent before)
    (described : before.session.commitState.Describes before.server)
    (effect : Effect before report after) : Coherent after ∧ Sound before ⟨report, after⟩ := by
  cases effect with
  | kept after server commitState kept =>
      refine ⟨kept, nofun, fun _ => congrArg _ server, ?_⟩
      dsimp only
      rw [server, commitState]
      exact described
  | expired =>
      refine ⟨coherent.released, ?_, nofun, described⟩
      intro state same
      cases same
      exact described
  | ended state after active ended =>
      rcases ended.describes coherent.released active with ⟨reported, held⟩
      refine ⟨ended.coherent coherent.released, ?_, nofun, ?_⟩
      · intro other same
        cases same
        exact reported
      · rcases held with same | rfl
        · dsimp only
          rw [same]
          exact reported
        · exact described

/-- Only the state of a new session describes a transaction that just began. -/
theorem describes_begin {before : World} (coherent : Coherent before) (state : CommitState) :
    state.Describes before.begin.server ↔ state = .knownNotCommitted := by
  cases state with
  | knownNotCommitted => exact iff_of_true coherent.unused rfl
  | unknownCommit => exact iff_of_false (fun held => coherent.unused held.1) nofun
  | knownCommitted =>
      exact iff_of_false
        (fun member => coherent.unused (coherent.acknowledged _ member)) nofun

/-- One call is sound exactly when it is fresh. -/
theorem CallEffect.sound {before after : World} {call : Call} {answers : Answers}
    {report : Option CommitState} (coherent : Coherent before)
    (described : before.session.commitState.Describes before.server)
    (effect : CallEffect before call answers report after) :
    Coherent after ∧ (Fresh before call answers ↔ Sound before ⟨report, after⟩) := by
  cases effect with
  | continued report after begins effect =>
      rcases effect.sound coherent described with ⟨kept, sound⟩
      refine ⟨kept, iff_of_true ?_ sound⟩
      intro began
      exact absurd (began.symm.trans begins) nofun
  | begun report after begins unreached undone server commitState kept =>
      refine ⟨kept, ?_⟩
      have fresh : Fresh before call answers ↔
          before.session.commitState = .knownNotCommitted := by
        simp only [Fresh, begins, true_implies, unreached, or_false]
      rw [fresh, ← describes_begin coherent]
      constructor
      · intro describes
        have undispatched : after.server.dispatched = before.server.dispatched := by
          rw [server]
          rfl
        refine ⟨?_, fun _ => undispatched, ?_⟩
        · intro state same
          rcases undone with absent | refused
          · exact nomatch same.symm.trans absent
          · cases same.symm.trans refused
            dsimp only
            rw [server]
            exact (describes_begin coherent _).mpr rfl
        · dsimp only
          rw [server, commitState]
          exact describes
      · intro sound
        have describes := sound.commitState
        dsimp only at describes
        rwa [server, commitState] at describes
  | finished state after begins reached dispatched ended =>
      have idle : Coherent before.beginning.released := coherent.begin_released
      rcases ended.describes idle coherent.unused with ⟨reported, held⟩
      refine ⟨ended.coherent idle, iff_of_true (fun _ => .inr reached) ⟨?_, nofun, ?_⟩⟩
      · intro other same
        cases same
        exact reported
      · cases ended with
        | refused => exact absurd rfl dispatched
        | lost => exact reported
        | committed => exact reported

/-- Every call of a run, with the world it found. -/
def Along (holds : World → Call → Answers → Prop) :
    World → List (Call × Answers) → Prop
  | _, [] => True
  | world, (call, answers) :: rest =>
      holds world call answers ∧ Along holds (world.serve call answers).after rest

def SoundCall (world : World) (call : Call) (answers : Answers) : Prop :=
  Sound world (world.serve call answers)

theorem along_iff {world : World} (coherent : Coherent world)
    (described : world.session.commitState.Describes world.server)
    (history : List (Call × Answers)) :
    Along Fresh world history ↔ Along SoundCall world history := by
  induction history generalizing world with
  | nil => exact Iff.rfl
  | cons step rest induction =>
      rcases step with ⟨call, answers⟩
      have effect : CallEffect world call answers _ _ := serve_effect coherent call
      rcases effect.sound coherent described with ⟨kept, exact⟩
      constructor
      · intro along
        have sound := exact.mp along.1
        exact ⟨sound, (induction kept sound.commitState).mp along.2⟩
      · intro along
        exact ⟨exact.mpr along.1, (induction kept along.1.commitState).mpr along.2⟩

/-- Reports and `commit_state` are true throughout a run exactly when no call of
it begins a transaction over the state that an earlier commit left. -/
theorem commit_outcomes (transactional : Bool) (history : List (Call × Answers)) :
    Along Fresh (.initial transactional) history ↔
      Along SoundCall (.initial transactional) history :=
  along_iff (.initial transactional) List.not_mem_nil history

/-- Everything answers in time. -/
def prompt : Answers :=
  ⟨true, true, [.connected], true, none, true, none, false, true, none, true, none, none, none⟩

/-- The deadline has expired on admission. -/
def late : Answers := { prompt with admitted := false }

/-- A session that is used again reports that its second transaction is
committed, though no one has dispatched that commit. -/
theorem reused_session_misreports :
    ((World.initial true).run [(.begin, prompt), (.commit, prompt), (.begin, prompt)]).serve
        .commit late =
      ⟨some .knownCommitted, ⟨⟨true, none, false, false, .knownCommitted⟩, ⟨2, [1], [1]⟩⟩⟩ ∧
    ¬ Along SoundCall (.initial true)
      [(.begin, prompt), (.commit, prompt), (.begin, prompt), (.commit, late)] := by
  refine ⟨by decide, ?_⟩
  intro along
  have claimed := along.2.2.2.1.report .knownCommitted (by decide)
  exact absurd claimed (by decide)

end MeridianPostgreSQL.Transactions
