import MeridianPostgreSQL.Transactions.ConnectionCustody

/-! # Returned connections

Whatever the calls of a session meet, its connections are guarded, and when it
has been closed they are all back in the pool. -/

namespace MeridianPostgreSQL.Transactions

/-! ## What a call does with the connection -/

/-- The log agrees with what the session holds. -/
structure Stands (watched : Watched) (standing : Option Standing) : Prop where
  follows : Follows ⟨watched.obtained, standing⟩ watched.log
  held : watched.world.session.connection.isSome = standing.isSome

/-- What holds between calls. -/
structure Rests (watched : Watched) : Prop where
  stands : Stands watched (watched.world.session.connection.map fun _ => .active)
  closed : watched.world.session.closed = true → watched.world.session.connection = none

section Rules

variable {watched : Watched} {standing : Option Standing} {answers : Answers}

theorem ends_unseen {α : Type} {action : Action α} {returned : α → Watched → Prop}
    {raised : Raise → Watched → Prop} :
    Ends (Watching.unseen action) watched returned raised ↔
      Ends action watched.world (fun result after => returned result (watched.withWorld after))
        (fun error after => raised error (watched.withWorld after)) := by
  simp only [Ends, Watching.unseen, EStateM.run]
  cases action watched.world <;> exact Iff.rfl

theorem ends_note {event : Nat → ConnectionEvent} {returned : Unit → Watched → Prop}
    {raised : Raise → Watched → Prop} :
    Ends (Watching.note event) watched returned raised ↔
      returned () (watched.note (event watched.obtained)) := Iff.rfl

theorem Stands.idle (stands : Stands watched none) : Rests watched := by
  have absent : watched.world.session.connection = none :=
    Option.isNone_iff_eq_none.mp (by simpa using stands.held)
  exact ⟨absent ▸ stands, fun _ => absent⟩

theorem Stands.note {next : Standing} {event : ConnectionEvent}
    (stands : Stands watched standing)
    (step : CustodyStep ⟨watched.obtained, standing⟩ event ⟨watched.obtained, some next⟩)
    (held : standing.isSome = true) : Stands (watched.note event) (some next) :=
  ⟨.next _ _ _ _ stands.follows step, stands.held.trans held⟩

theorem Stands.used (stands : Stands watched (some .active)) (command : Command) :
    Stands (watched.note (.used watched.obtained command)) (some .active) :=
  stands.note (.used _ command .active nofun) rfl

theorem Stands.settled (stands : Stands watched (some .active)) :
    Stands (watched.note (.settled watched.obtained)) (some .settled) :=
  stands.note (.settled _) rfl

/-- The connection goes back: what it is noted as lasts. -/
theorem ends_returning (standing : Standing) (ended : standing ≠ .active)
    (follows : Follows ⟨watched.obtained, some standing⟩ watched.log)
    (absent : watched.world.session.connection = none) :
    Ends (Watching.note .returned >>= fun _ => Watching.unseen (wait answers.returning)) watched
      (fun _ after => Stands after none) (fun _ after => Stands after none) := by
  have back : Stands (watched.note (.returned watched.obtained)) none :=
    ⟨.next _ _ _ _ follows (.returned _ standing ended), congrArg Option.isSome absent⟩
  rw [ends_bind, ends_note, ends_unseen]
  exact ends_wait (fun _ => back) fun _ _ => back

/-- A release gives the connection back, whatever the pool answers. -/
theorem ends_watched_release {discard : Bool} (closes : answers.closing = none)
    (stands : Stands watched standing) (ended : discard = true ∨ standing ≠ some .active) :
    Ends (Watching.release answers discard) watched (fun _ after => Stands after none)
      (fun _ after => Stands after none) := by
  unfold Watching.release
  rw [ends_bind, ends_get, ends_bind, ends_unseen, ends_modify]
  cases standing with
  | none =>
      have absent : watched.world.session.connection = none :=
        Option.isNone_iff_eq_none.mp (by simpa using stands.held)
      rw [absent]
      exact ends_pure.mpr ⟨stands.follows, rfl⟩
  | some standing =>
      obtain ⟨connection, current⟩ := Option.isSome_iff_exists.mp stands.held
      rw [current]
      cases discard with
      | false =>
          have settled : standing ≠ .active := fun active =>
            ended.elim nofun fun other => other (congrArg some active)
          exact ends_returning standing settled stands.follows rfl
      | true =>
          dsimp only
          rw [if_pos rfl, ends_bind, ends_note, ends_bind, closes, ends_unseen]
          exact ends_returning .discarded nofun
            (.next _ _ _ _ stands.follows (.discarded _ standing)) rfl

theorem ends_watched_suppress {returned : Unit → Watched → Prop}
    {raised : Raise → Watched → Prop} (closes : answers.closing = none)
    (stands : Stands watched standing)
    (finished : ∀ after, Stands after none → returned () after) :
    Ends (Watching.suppress (Watching.release answers true)) watched returned raised := by
  unfold Watching.suppress
  rw [ends_tryCatch]
  exact (ends_watched_release closes stands (.inl rfl)).mono (fun _ after => finished after)
    fun _ after back => ends_pure.mpr (finished after back)

theorem ends_discard {returned : Unit → Watched → Prop} {error : Raise}
    (closes : answers.closing = none) (stands : Stands watched standing) :
    Ends (Watching.suppress (Watching.release answers true) >>= fun _ => throw error) watched
      returned (fun _ after => Stands after none) := by
  rw [ends_bind]
  exact ends_watched_suppress closes stands fun _ back => back

theorem ends_watched_refuse {returned : Unit → Watched → Prop} {state : CommitState}
    (closes : answers.closing = none) (stands : Stands watched standing) :
    Ends (Watching.refuse answers state) watched returned (fun _ after => Stands after none) :=
  ends_discard closes stands

/-! ## Beginning and ending a transaction -/

theorem ends_watched_acquireBegin (closes : answers.closing = none)
    (stands : Stands watched none) (opened : watched.world.session.closed = false) :
    Ends (Watching.acquireBegin answers) watched
      (fun _ after => Stands after (some .active) ∧ after.world.session.closed = false)
      (fun _ after => Stands after none) := by
  unfold Watching.acquireBegin
  rw [ends_bind, ends_unseen]
  apply ends_remaining
  · intro _
    cases acquire answers.attempts with
    | error failure => exact stands
    | ok _ =>
        have lent : Stands watched.obtain (some .active) :=
          ⟨.next _ _ _ _ stands.follows (.lent _), rfl⟩
        dsimp only
        rw [ends_bind]
        refine ends_modify.mpr ?_
        rw [ends_tryCatch, ends_bind, ends_unseen]
        apply ends_remaining
        · intro _
          rw [ends_bind, ends_note, ends_bind, ends_unseen]
          apply ends_wait
          · intro _
            rw [ends_bind, ends_unseen, ends_modify, ends_bind, ends_unseen]
            have begun := lent.used .begin
            apply ends_remaining
            · intro _
              rw [ends_unseen, ends_modify]
              exact ⟨⟨begun.follows, rfl⟩, opened⟩
            · intro _
              exact ends_discard closes ⟨begun.follows, rfl⟩
          · intro failure _
            exact ends_discard closes (lent.used .begin)
        · intro _
          exact ends_discard closes lent
  · intro _
    exact stands

theorem ends_watched_statement (stands : Stands watched (some .active)) :
    Ends (Watching.statement answers) watched
      (fun _ after => Stands after (some .active) ∧
        after.world.session.closed = watched.world.session.closed)
      (fun _ after => Stands after (some .active) ∧
        after.world.session.closed = watched.world.session.closed) := by
  unfold Watching.statement statement
  rw [ends_bind, ends_note, ends_unseen, ends_bind, ends_modify]
  have used := stands.used .statements
  have after : Stands ((watched.note (.used watched.obtained .statements)).withWorld
      (watched.world.withInError answers.inError)) (some .active) :=
    ⟨used.follows, (Option.isSome_map ..).trans used.held⟩
  exact ends_wait (fun _ => ⟨after, rfl⟩) fun _ _ => ⟨after, rfl⟩

theorem ends_watched_commitConnection (stands : Stands watched (some .active))
    (connection : Connection) :
    Ends (Watching.commitConnection answers connection) watched
      (fun _ after => Stands after (some .settled))
      (fun _ after => Stands after (some .active)) := by
  unfold Watching.commitConnection commitConnection
  rw [ends_bind, ends_note, ends_bind, ends_unseen, ends_bind, ends_modify, ends_bind]
  have used := stands.used .commit
  apply ends_wait
  · intro _
    have settled := used.settled
    rw [ends_modify, ends_note]
    refine ⟨settled.follows, Eq.trans ?_ settled.held⟩
    unfold World.acknowledge
    split <;> rfl
  · intro failure _
    exact ⟨used.follows, used.held⟩

/-- However a commit ends, the connection is back. -/
theorem ends_watched_commitTransaction (closes : answers.closing = none)
    (stands : Stands watched (some .active)) :
    Ends (Watching.commitTransaction answers) watched (fun _ after => Stands after none)
      (fun _ after => Stands after none) := by
  unfold Watching.commitTransaction
  rw [ends_bind, ends_tryCatch, ends_unseen]
  apply ends_remaining
  · intro _
    obtain ⟨connection, current⟩ := Option.isSome_iff_exists.mp stands.held
    rw [ends_bind, ends_get]
    dsimp only [Watched.withWorld]
    rw [current]
    dsimp only
    split
    · exact ends_watched_refuse closes stands
    · have dispatching : Stands (watched.withWorld (watched.world.withCommitState .unknownCommit))
          (some .active) := ⟨stands.follows, stands.held⟩
      rw [ends_bind, ends_unseen, ends_modify, ends_bind, ends_tryCatch]
      apply (ends_watched_commitConnection dispatching connection).mono
      · intro _ after settled
        have reported : Stands (after.withWorld (after.world.withCommitState .knownCommitted))
            (some .settled) := ⟨settled.follows, settled.held⟩
        rw [ends_bind, ends_unseen, ends_modify, ends_bind, ends_tryCatch, ends_unseen]
        apply ends_remaining
        · intro _
          rw [ends_tryCatch]
          exact (ends_watched_release closes reported (.inr nofun)).mono (fun _ _ back => back)
            fun _ _ back => ends_throw.mpr back
        · intro _
          exact ends_watched_refuse closes reported
      · intro _ after failed
        exact ends_watched_refuse closes failed
  · intro _
    exact ends_watched_refuse closes stands

theorem ends_watched_rollbackConnection (stands : Stands watched (some .active)) :
    Ends (Watching.rollbackConnection answers) watched
      (fun _ after => Stands after (some .settled))
      (fun _ after => Stands after (some .active)) := by
  unfold Watching.rollbackConnection
  have used := stands.used .rollback
  rw [ends_bind, ends_note, ends_bind, ends_unseen]
  exact ends_wait (fun _ => used.settled) fun _ _ => used

/-- A rollback and a release, or the error of either. -/
theorem ends_rollback_release (closes : answers.closing = none)
    (stands : Stands watched (some .active)) :
    Ends (Watching.rollbackConnection answers >>= fun _ => Watching.release answers false)
      watched (fun _ after => Stands after none)
      (fun _ after => ∃ standing, Stands after standing) := by
  rw [ends_bind]
  apply (ends_watched_rollbackConnection stands).mono
  · intro _ after settled
    exact (ends_watched_release closes settled (.inr nofun)).mono (fun _ _ back => back)
      fun _ _ back => ⟨none, back⟩
  · exact fun _ _ failed => ⟨_, failed⟩

/-! ## Calls -/

theorem ends_watched_guard {body : Watching Unit} {returned : Unit → Watched → Prop}
    {raised : Raise → Watched → Prop}
    (admitted : Ends body watched returned raised) (expired : raised .timeout watched) :
    Ends (Watching.guard answers body) watched returned raised := by
  unfold Watching.guard
  rw [ends_bind, ends_unseen]
  exact ends_remaining (fun _ => admitted) fun _ => expired

/-- A call ends at rest. -/
def Settles (watched : Watched) (call : Call) (answers : Answers) : Prop :=
  Ends (Watching.serve call answers) watched (fun _ after => Rests after)
    (fun _ after => Rests after)

theorem Rests.absent (rests : Rests watched)
    (current : watched.world.session.connection = none) : Stands watched none := by
  have stands := rests.stands
  rw [current] at stands
  exact stands

theorem Rests.present {connection : Connection} (rests : Rests watched)
    (current : watched.world.session.connection = some connection) :
    Stands watched (some .active) := by
  have stands := rests.stands
  rw [current] at stands
  exact stands

theorem Stands.rests (stands : Stands watched (some .active))
    (opened : watched.world.session.closed = false) : Rests watched := by
  obtain ⟨connection, current⟩ := Option.isSome_iff_exists.mp stands.held
  refine ⟨by rw [current]; exact stands, fun closed => ?_⟩
  exact absurd (opened.symm.trans closed) Bool.false_ne_true

theorem ends_discarded {error : Raise} (closes : answers.closing = none)
    (stands : Stands watched standing) :
    Ends (Watching.suppress (Watching.release answers true) >>= fun _ => throw error :
        Watching Unit) watched
      (fun _ after => Rests after) (fun _ after => Rests after) :=
  (ends_discard closes stands).mono (fun _ _ rests => rests) fun _ _ back => back.idle

theorem begin_settles (closes : answers.closing = none) (rests : Rests watched)
    (coherent : Coherent watched.world) : Settles watched .begin answers := by
  unfold Settles Watching.serve Watching.begin
  apply ends_watched_guard _ rests
  rw [ends_bind, ends_unseen]
  apply ends_requireOpen _ fun _ => rests
  intro opened
  rw [ends_bind, ends_get]
  split
  · exact rests
  · rename_i accepted
    have idle : watched.world.session.begun = false := by simp_all [Watched.withWorld]
    have absent : watched.world.session.connection = none := by
      simpa [idle] using coherent.begun.symm
    have stands := rests.absent absent
    apply (ends_watched_acquireBegin closes stands opened).mono
    · exact fun _ after held => held.1.rests held.2
    · exact fun _ _ back => back.idle

theorem execute_settles (closes : answers.closing = none) (rests : Rests watched)
    (coherent : Coherent watched.world) : Settles watched .execute answers := by
  unfold Settles Watching.serve Watching.execute
  apply ends_watched_guard _ rests
  rw [ends_bind, ends_unseen]
  apply ends_requireOpen _ fun _ => rests
  intro opened
  rw [ends_bind, ends_get]
  split
  · split
    · rename_i begun
      have held : watched.world.session.connection.isSome = true := coherent.begun ▸ begun
      obtain ⟨connection, current⟩ := Option.isSome_iff_exists.mp held
      have stands := rests.present current
      exact (ends_watched_statement stands).mono
        (fun _ after kept => kept.1.rests (kept.2.trans opened))
        fun _ after kept => kept.1.rests (kept.2.trans opened)
    · exact rests
  · rename_i several
    have single : watched.world.session.transactional = false := by
      simpa [Watched.withWorld] using several
    have stands := rests.absent (coherent.single single)
    rw [ends_bind]
    apply (ends_watched_acquireBegin closes stands opened).mono
    · intro _ begun held
      rw [ends_tryCatch, ends_bind]
      apply (ends_watched_statement held.1).mono
      · intro _ after kept
        exact (ends_watched_commitTransaction closes kept.1).mono (fun _ _ back => back.idle)
          fun _ _ back => ends_discarded closes back
      · exact fun _ after kept => ends_discarded closes kept.1
    · exact fun _ _ back => back.idle

theorem commit_settles (closes : answers.closing = none) (rests : Rests watched) :
    Settles watched .commit answers := by
  unfold Settles Watching.serve Watching.commit
  rw [ends_tryCatch]
  refine Ends.mono (?_ : Ends _ watched (fun _ after => Rests after) fun _ after => Rests after)
    (fun _ _ rested => rested) ?_
  · apply ends_watched_guard _ rests
    rw [ends_bind, ends_unseen]
    apply ends_requireTransaction
    · intro connection current
      have stands := rests.present current
      exact (ends_watched_commitTransaction closes stands).mono (fun _ _ back => back.idle)
        fun _ _ back => back.idle
    · exact fun _ _ _ => rests
  · intro error after rested
    cases error with
    | timeout =>
        rw [ends_bind]
        exact ends_watched_suppress closes rested.stands fun _ back => back.idle
    | _ => exact rested

theorem rollback_settles (closes : answers.closing = none) (rests : Rests watched) :
    Settles watched .rollback answers := by
  unfold Settles Watching.serve Watching.rollback
  rw [ends_tryCatch]
  apply ends_watched_guard _ (ends_discarded closes rests.stands)
  rw [ends_bind, ends_unseen]
  apply ends_requireTransaction
  · intro connection current
    have stands := rests.present current
    apply (ends_rollback_release closes stands).mono (fun _ _ back => back.idle)
    rintro _ after ⟨standing, failed⟩
    exact ends_discarded closes failed
  · exact fun _ _ _ => ends_discarded closes rests.stands

theorem ends_watched_closeConnection (closes : answers.closing = none)
    (stands : Stands watched (some .active)) :
    Ends (Watching.closeConnection answers) watched (fun _ after => Stands after none)
      (fun _ after => Stands after none) := by
  unfold Watching.closeConnection
  rw [ends_tryCatch]
  refine Ends.mono (?_ : Ends _ watched (fun _ after => Stands after none)
    fun _ after => ∃ standing, Stands after standing) (fun _ _ back => back) ?_
  · apply ends_watched_guard _ ⟨_, stands⟩
    exact ends_rollback_release closes stands
  · rintro error after ⟨standing, failed⟩
    have released := ends_watched_release closes failed (.inl rfl : true = true ∨ _)
    cases error with
    | timeout => exact released
    | commitOutcome state => exact released
    | _ =>
        rw [ends_bind]
        exact released.mono (fun _ _ back => ends_throw.mpr back) fun _ _ back => back

/-- A closed session has no connection. -/
theorem close_settles (closes : answers.closing = none) (rests : Rests watched) :
    Ends (Watching.serve .close answers) watched
      (fun _ after => Rests after ∧ after.world.session.closed = true)
      (fun _ after => Rests after ∧ after.world.session.closed = true) := by
  unfold Watching.serve Watching.close
  rw [ends_bind, ends_get]
  split
  · rename_i closed
    exact ⟨rests, closed⟩
  · have marked : ∀ {after}, Stands after none →
        Rests (after.withWorld (after.world.withSession
          { after.world.session with closed := true })) := fun back =>
      Stands.idle ⟨back.follows, back.held⟩
    rw [ends_bind, ends_tryCatch]
    cases current : watched.world.session.connection with
    | none =>
        have stands := rests.absent current
        exact ⟨marked stands, rfl⟩
    | some connection =>
        apply (ends_watched_closeConnection closes (rests.present current)).mono
        · exact fun _ after back => ⟨marked back, rfl⟩
        · exact fun _ after back => ⟨marked back, rfl⟩

theorem settles_serve (closes : answers.closing = none) (rests : Rests watched)
    (coherent : Coherent watched.world) (call : Call) : Settles watched call answers := by
  cases call with
  | begin => exact begin_settles closes rests coherent
  | execute => exact execute_settles closes rests coherent
  | commit => exact commit_settles closes rests
  | rollback => exact rollback_settles closes rests
  | close =>
      exact (close_settles closes rests).mono (fun _ _ closed => closed.1)
        fun _ _ closed => closed.1

theorem Watched.serve_rests (closes : answers.closing = none) (rests : Rests watched)
    (coherent : Coherent watched.world) (call : Call) : Rests (watched.serve call answers) := by
  have settles := settles_serve closes rests coherent call
  unfold Settles Ends at settles
  unfold Watched.serve
  cases ended : (Watching.serve call answers).run watched <;> rw [ended] at settles <;>
    exact settles

theorem Watched.serve_closed (closes : answers.closing = none) (rests : Rests watched) :
    (watched.serve .close answers).world.session.closed = true := by
  have settles := close_settles closes rests
  unfold Ends at settles
  unfold Watched.serve
  cases ended : (Watching.serve .close answers).run watched <;> rw [ended] at settles <;>
    exact settles.2

end Rules

/-! ## Runs -/

theorem Effect.coherent {before after : World} {report : Option CommitState}
    (coherent : Coherent before) (effect : Effect before report after) : Coherent after := by
  cases effect with
  | kept after server commitState kept => exact kept
  | expired => exact coherent.released
  | ended state after active ended => exact ended.coherent coherent.released

theorem CallEffect.coherent {before after : World} {call : Call} {answers : Answers}
    {report : Option CommitState} (coherent : Coherent before)
    (effect : CallEffect before call answers report after) : Coherent after := by
  cases effect with
  | continued report after begins effect => exact effect.coherent coherent
  | begun report after begins unreached undone server commitState kept => exact kept
  | finished state after begins reached dispatched ended =>
      have idle : Coherent before.beginning.released := coherent.begin_released
      exact ended.coherent idle

theorem Watched.serve_coherent {watched : Watched} (coherent : Coherent watched.world)
    (call : Call) (answers : Answers) : Coherent (watched.serve call answers).world := by
  rw [Watched.serve_world]
  exact (serve_effect coherent call).coherent coherent

theorem Rests.initial (transactional : Bool) : Rests (.initial transactional) :=
  Stands.idle ⟨.start, rfl⟩

theorem Watched.run_rests {watched : Watched} (rests : Rests watched)
    (coherent : Coherent watched.world) (history : List (Call × Answers))
    (closes : ∀ step ∈ history, step.2.closing = none) :
    Rests (watched.run history) ∧ Coherent (watched.run history).world := by
  induction history generalizing watched with
  | nil => exact ⟨rests, coherent⟩
  | cons step rest induction =>
      obtain ⟨now, later⟩ := List.forall_mem_cons.mp closes
      exact induction (Watched.serve_rests now rests coherent step.1)
        (Watched.serve_coherent coherent step.1 step.2) later

/-- As long as no connection refuses to be closed, every connection comes back
to the pool at most once, closed or with its transaction ended, without being
used again, and all are back when the session has been closed. -/
theorem connections_returned (transactional : Bool) (history : List (Call × Answers))
    (closes : ∀ step ∈ history, step.2.closing = none) :
    Guarded ((Watched.initial transactional).run history).log ∧
    ∀ earlier answers, history = earlier ++ [(.close, answers)] →
      ∀ number, .lent number ∈ ((Watched.initial transactional).run history).log →
        ((Watched.initial transactional).run history).log.count (.returned number) = 1 := by
  have runs := Watched.run_rests (.initial transactional)
    (Coherent.initial transactional : Coherent (Watched.initial transactional).world)
  refine ⟨(runs history closes).1.stands.follows.guarded, ?_⟩
  rintro earlier answers rfl number lent
  have before := runs earlier fun step member => closes step (List.mem_append_left _ member)
  have final := runs _ closes
  have last : (Watched.initial transactional).run (earlier ++ [(.close, answers)]) =
      ((Watched.initial transactional).run earlier).serve .close answers :=
    List.foldl_append
  have closed := Watched.serve_closed (closes (.close, answers) (by simp)) before.1
  rw [← last] at closed
  have absent := final.1.closed closed
  exact final.1.stands.follows.all_returned (by simp [absent]) number lent

/-- A commit is lost and another transaction is still open when the deadline
expires: both connections are closed on their way back. -/
theorem connections_returned_lost :
    ((Watched.initial true).run [(.begin, prompt), (.commit, { prompt with
        committing := some .other }), (.begin, prompt), (.close, late)]).log =
      [.lent 1, .used 1 .begin, .used 1 .commit, .discarded 1, .returned 1,
        .lent 2, .used 2 .begin, .discarded 2, .returned 2] ∧
    Guarded ((Watched.initial true).run [(.begin, prompt), (.commit, { prompt with
        committing := some .other }), (.begin, prompt), (.close, late)]).log :=
  ⟨by decide, (connections_returned true _ (by decide)).1⟩

end MeridianPostgreSQL.Transactions
