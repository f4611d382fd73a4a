import MeridianPostgreSQL.Foundation.TransactionContracts

/-! # Certified programs run as atomic effects

Row locks are exclusive and cover every uncommitted write, so a commit never
touches a row another transaction relies on. Certified programs therefore
keep the invariant of their contract in every interleaving, and every commit
has an effect the contract allows. -/

namespace MeridianPostgreSQL.ReadCommitted

variable {Key : Type} {Row : Key → Type} {Failure Result : Type}

/-! ## Lock discipline -/

/-- Every written row is locked. -/
def Covered (writes : Writes Row) (locks : Set Key) : Prop :=
  ∀ key, writes key ≠ none → key ∈ locks

theorem Covered.mono {writes : Writes Row} {locks more : Set Key}
    (covered : Covered writes locks) (subset : locks ⊆ more) :
    Covered writes more :=
  fun key written => subset (covered key written)

theorem Covered.update [DecidableEq Key] {writes : Writes Row}
    {locks : Set Key} (covered : Covered writes locks) (key : Key)
    (row : Option (Row key)) :
    Covered (Function.update writes key (some row)) (insert key locks) := by
  intro other written
  by_cases same : other = key
  · subst other
    exact Set.mem_insert key locks
  · rw [Function.update_of_ne same] at written
    exact Set.mem_insert_of_mem key (covered other written)

/-- Savepoints remember ever fewer locks, each covering its own writes. -/
def Nested : Set Key → List (Writes Row × Set Key) → Prop
  | _, [] => True
  | locks, (writes, inner) :: saved =>
      Covered writes inner ∧ inner ⊆ locks ∧ Nested inner saved

theorem Nested.mono {locks more : Set Key} {saved : List (Writes Row × Set Key)}
    (nested : Nested locks saved) (subset : locks ⊆ more) : Nested more saved := by
  cases saved with
  | nil => trivial
  | cons entry saved =>
      exact ⟨nested.1, nested.2.1.trans subset, nested.2.2⟩

/-- The locks of a workspace cover its writes and those of its savepoints. -/
structure Workspace.Disciplined (workspace : Workspace Row) : Prop where
  covered : Covered workspace.writes workspace.locks
  nested : Nested workspace.locks workspace.saved

namespace Workspace

theorem fresh_disciplined : (fresh : Workspace Row).Disciplined where
  covered := fun _ written => absurd rfl written
  nested := trivial

theorem Disciplined.lock {workspace : Workspace Row}
    (disciplined : workspace.Disciplined) (key : Key) :
    ({ workspace with locks := insert key workspace.locks } :
      Workspace Row).Disciplined where
  covered := disciplined.covered.mono (Set.subset_insert key workspace.locks)
  nested := disciplined.nested.mono (Set.subset_insert key workspace.locks)

theorem lockRow_locks_subset (workspace : Workspace Row) (key : Key)
    (row : Option (Row key)) :
    (workspace.lockRow key row).locks ⊆ insert key workspace.locks := by
  cases row with
  | none => exact Set.subset_insert key workspace.locks
  | some row => exact subset_rfl

theorem Disciplined.lockRow {workspace : Workspace Row}
    (disciplined : workspace.Disciplined) (key : Key) (row : Option (Row key)) :
    (workspace.lockRow key row).Disciplined := by
  cases row with
  | none => exact disciplined
  | some row => exact disciplined.lock key

variable [DecidableEq Key]

theorem record_locks_subset (workspace : Workspace Row) (key : Key)
    (change : Change (Row key)) :
    (workspace.record key change).locks ⊆ insert key workspace.locks := by
  cases change with
  | keep => exact Set.subset_insert key workspace.locks
  | put row => exact subset_rfl
  | delete => exact subset_rfl

theorem Disciplined.record {workspace : Workspace Row}
    (disciplined : workspace.Disciplined) (key : Key)
    (change : Change (Row key)) : (workspace.record key change).Disciplined := by
  have wider := disciplined.nested.mono (Set.subset_insert key workspace.locks)
  cases change with
  | keep => exact disciplined
  | put row => exact ⟨disciplined.covered.update key (some row), wider⟩
  | delete => exact ⟨disciplined.covered.update key none, wider⟩

end Workspace

section Statements

variable [DecidableEq Key] {rows : Store Row} {held : Set Key}
  {before after : Transaction Row Failure Result}

theorem Statement.disciplined (statement : Statement rows held before after)
    (disciplined : before.workspace.Disciplined) :
    after.workspace.Disciplined := by
  cases statement with
  | clock | refuse | read | scan | lockSkipped => exact disciplined
  | lock workspace key => exact disciplined.lockRow key _
  | lockTaken workspace key => exact disciplined.lock key
  | modify workspace key => exact disciplined.record key _
  | savepoint =>
      exact ⟨disciplined.covered,
        disciplined.covered, subset_rfl, disciplined.nested⟩
  | rollbackTo workspace writes locks saved next outer =>
      have nested := disciplined.nested
      rw [outer] at nested
      exact ⟨nested.1, nested.2.2⟩
  | release workspace entry saved next outer =>
      have nested := disciplined.nested
      rw [outer] at nested
      exact ⟨disciplined.covered, nested.2.2.mono nested.2.1⟩

/-- A statement only locks rows nobody else holds. -/
theorem Statement.lock_available (statement : Statement rows held before after)
    (disciplined : before.workspace.Disciplined) {key : Key}
    (locked : key ∈ after.workspace.locks) :
    key ∈ before.workspace.locks ∨ key ∉ held := by
  cases statement with
  | clock | refuse | read | scan | lockSkipped | savepoint | release =>
      exact .inl locked
  | lock workspace row next available =>
      rcases workspace.lockRow_locks_subset row _ locked with rfl | member
      · exact .inr available
      · exact .inl member
  | lockTaken workspace row next available =>
      rcases locked with rfl | member
      · exact .inr available
      · exact .inl member
  | modify workspace row change next available =>
      rcases workspace.record_locks_subset row _ locked with rfl | member
      · exact .inr available
      · exact .inl member
  | rollbackTo workspace writes locks saved next outer =>
      have nested := disciplined.nested
      rw [outer] at nested
      exact .inl (nested.2.1 locked)

/-- A transaction will finish in `post` or fail in `failed` whatever other
transactions commit. -/
def Contract.Ensures (contract : Contract Row Result)
    (post : Result → Workspace Row → Committed Row Result → Prop)
    (failed : Failure → Workspace Row → Committed Row Result → Prop)
    (transaction : Transaction Row Failure Result)
    (committed : Committed Row Result) : Prop :=
  contract.Stable transaction.workspace.locks committed
    (contract.Wp transaction.program post failed transaction.workspace)

theorem Contract.Ensures.later {contract : Contract Row Result}
    {post : Result → Workspace Row → Committed Row Result → Prop}
    {failed : Failure → Workspace Row → Committed Row Result → Prop}
    {committed later : Committed Row Result}
    (ensures : contract.Ensures post failed before committed)
    (interferes : contract.Interferes before.workspace.locks committed later) :
    contract.Ensures post failed before later :=
  fun latest further => ensures latest (interferes.trans further)

theorem Statement.ensures {contract : Contract Row Result}
    {post : Result → Workspace Row → Committed Row Result → Prop}
    {failed : Failure → Workspace Row → Committed Row Result → Prop}
    {committed : Committed Row Result}
    (statement : Statement committed.rows held before after)
    (invariant : contract.Invariant committed)
    (ensures : contract.Ensures post failed before committed) :
    contract.Ensures post failed after committed := by
  have now := ensures committed (.refl committed) invariant
  cases statement with
  | clock workspace next reading =>
      exact fun later interferes holds => ensures later interferes holds reading
  | refuse workspace next refused =>
      exact fun later interferes holds => ensures later interferes holds refused
  | read workspace next => exact now
  | scan workspace wanted next keys nodup complete =>
      exact now keys nodup complete
  | lock workspace key next => exact now
  | lockSkipped workspace key next => exact now.1
  | lockTaken workspace key next => exact now.2
  | modify workspace key change next => exact now
  | savepoint workspace next =>
      exact fun later interferes holds => ensures later interferes holds
  | rollbackTo workspace writes locks saved next outer =>
      simp only [Contract.Wp, outer] at now
      exact now
  | release workspace entry saved next outer =>
      intro later interferes holds
      have next := ensures later interferes holds
      simp only [Contract.Wp, outer] at next
      exact next

end Statements

/-! ## Servers -/

theorem Server.withTransaction_cases {server : Server Row Failure Result}
    {session other : Nat}
    {transaction : Option (Transaction Row Failure Result)}
    {found : Transaction Row Failure Result}
    (present : (server.withTransaction session transaction).transactions other =
      some found) :
    (other = session ∧ transaction = some found) ∨
      (other ≠ session ∧ server.transactions other = some found) := by
  by_cases same : other = session
  · subst other
    exact .inl ⟨rfl, by simpa [Server.withTransaction] using present⟩
  · exact .inr ⟨same, by
      simpa [Server.withTransaction, Function.update_of_ne same] using present⟩

/-- What every reachable server keeps. -/
structure Contract.Sound (contract : Contract Row Result)
    [DecidableEq Key] (server : Server Row Failure Result) : Prop where
  invariant : contract.Invariant server.committed
  exclusive : ∀ {first second left right},
    server.transactions first = some left →
    server.transactions second = some right → first ≠ second →
    ∀ key, key ∈ left.workspace.locks → key ∉ right.workspace.locks
  disciplined : ∀ {session transaction},
    server.transactions session = some transaction →
    transaction.workspace.Disciplined
  covers : ∀ {session transaction},
    server.transactions session = some transaction →
    contract.Ensures contract.Commits (fun _ _ _ => True) transaction
      server.committed

section Servers

variable [DecidableEq Key] {contract : Contract Row Result}
  {programs : Program Row Failure Result → Prop}
  {server next : Server Row Failure Result}

theorem Contract.Sound.initial {rows : Store Row}
    (holds : contract.Invariant ⟨rows, []⟩) :
    contract.Sound (.initial rows : Server Row Failure Result) where
  invariant := holds
  exclusive := fun present => nomatch present
  disciplined := fun present => nomatch present
  covers := fun present => nomatch present

/-- Replacing one session keeps a server sound when the replacement is sound
against the others. -/
theorem Contract.Sound.replace (sound : contract.Sound server) (session : Nat)
    (transaction : Option (Transaction Row Failure Result))
    (disciplined : ∀ found, transaction = some found →
      found.workspace.Disciplined)
    (covers : ∀ found, transaction = some found →
      contract.Ensures contract.Commits (fun _ _ _ => True) found server.committed)
    (apart : ∀ found, transaction = some found →
      ∀ key, key ∈ found.workspace.locks → key ∉ server.heldByOthers session) :
    contract.Sound (server.withTransaction session transaction) where
  invariant := sound.invariant
  exclusive := by
    intro first second left right leftPresent rightPresent different key locked
    rcases Server.withTransaction_cases leftPresent with
      ⟨rfl, leftNew⟩ | ⟨firstOther, leftOld⟩
    · rcases Server.withTransaction_cases rightPresent with
        ⟨rfl, _⟩ | ⟨secondOther, rightOld⟩
      · exact absurd rfl different
      · exact fun taken => apart left leftNew key locked
          ⟨second, right, secondOther, rightOld, taken⟩
    · rcases Server.withTransaction_cases rightPresent with
        ⟨rfl, rightNew⟩ | ⟨_, rightOld⟩
      · exact fun taken => apart right rightNew key taken
          ⟨first, left, firstOther, leftOld, locked⟩
      · exact sound.exclusive leftOld rightOld different key locked
  disciplined := by
    intro other found present
    rcases Server.withTransaction_cases present with ⟨rfl, new⟩ | ⟨_, old⟩
    · exact disciplined found new
    · exact sound.disciplined old
  covers := by
    intro other found present
    rcases Server.withTransaction_cases present with ⟨rfl, new⟩ | ⟨_, old⟩
    · exact covers found new
    · exact sound.covers old

/-- A finished transaction commits with an allowed effect. -/
theorem Contract.Sound.commit_effect (sound : contract.Sound server)
    {session : Nat} {workspace : Workspace Row} {result : Result}
    (current : server.transactions session = some ⟨workspace, .finish result⟩) :
    contract.Effect server.committed result
      (overlay workspace.writes server.committed.rows) :=
  sound.covers current server.committed (.refl _) sound.invariant

/-- A commit leaves the rows alone that another transaction has locked. -/
theorem Contract.Sound.commit_foreign (sound : contract.Sound server)
    {session other : Nat} {workspace : Workspace Row} {result : Result}
    {transaction : Transaction Row Failure Result}
    (current : server.transactions session = some ⟨workspace, .finish result⟩)
    (present : server.transactions other = some transaction)
    (different : session ≠ other) :
    contract.Foreign transaction.workspace.locks server.committed
      (server.committed.extend result
        (overlay workspace.writes server.committed.rows)) := by
  refine ⟨result, _, sound.commit_effect current, rfl, fun key locked => ?_⟩
  apply overlay_of_unwritten
  by_contra written
  exact sound.exclusive current present different key
    ((sound.disciplined current).covered key written) locked

theorem Contract.Sound.step (sound : contract.Sound server)
    (certified : ∀ program, programs program → contract.Certifies program)
    (step : Step programs server next) : contract.Sound next := by
  cases step with
  | begin session program idle admitted =>
      apply sound.replace
      · rintro found ⟨⟩
        exact Workspace.fresh_disciplined
      · rintro found ⟨⟩
        exact fun later _ holds => certified program admitted later holds
      · rintro found ⟨⟩ key locked
        exact nomatch locked
  | statement session transaction after current sent =>
      have disciplined := sound.disciplined current
      apply sound.replace
      · rintro found ⟨⟩
        exact sent.disciplined disciplined
      · rintro found ⟨⟩
        exact sent.ensures sound.invariant (sound.covers current)
      · rintro found ⟨⟩ key locked
        rcases sent.lock_available disciplined locked with kept | available
        · rintro ⟨other, transaction, different, present, taken⟩
          exact sound.exclusive current present different.symm key kept taken
        · exact available
  | rollback session transaction current =>
      apply sound.replace <;> exact fun found absent => nomatch absent
  | commit session workspace result current =>
      have effect := sound.commit_effect current
      have removed : contract.Sound (server.withTransaction session none) := by
        apply sound.replace <;> exact fun found absent => nomatch absent
      refine ⟨contract.preserved sound.invariant effect, removed.exclusive,
        removed.disciplined, ?_⟩
      intro other found present
      rcases Server.withTransaction_cases present with
        ⟨_, absent⟩ | ⟨different, old⟩
      · exact nomatch absent
      · exact (sound.covers old).later
          (.single (sound.commit_foreign current old different.symm))

/-- Certified programs keep every reachable server sound. -/
theorem Contract.reachable_sound (contract : Contract Row Result) {rows : Store Row}
    (certified : ∀ program, programs program → contract.Certifies program)
    (holds : contract.Invariant ⟨rows, []⟩)
    (reachable : Reachable programs rows server) : contract.Sound server := by
  induction reachable with
  | refl => exact .initial holds
  | tail _ step induction => exact induction.step certified step

/-- A step of a sound server leaves the committed rows alone or commits one
allowed effect. -/
theorem Contract.Sound.step_effect (sound : contract.Sound server)
    (step : Step programs server next) :
    next.committed = server.committed ∨
      ∃ result rows, contract.Effect server.committed result rows ∧
        next.committed = server.committed.extend result rows := by
  cases step with
  | begin | statement | rollback => exact .inl rfl
  | commit session workspace result current =>
      exact .inr ⟨result, _, sound.commit_effect current, rfl⟩

/-- What holds at first and is kept by every allowed effect holds of the
committed state of every reachable server. -/
theorem Contract.reachable_induction (contract : Contract Row Result)
    {rows : Store Row} (property : Committed Row Result → Prop)
    (certified : ∀ program, programs program → contract.Certifies program)
    (holds : contract.Invariant ⟨rows, []⟩) (initial : property ⟨rows, []⟩)
    (kept : ∀ {committed result rows}, contract.Invariant committed →
      property committed → contract.Effect committed result rows →
      property (committed.extend result rows))
    (reachable : Reachable programs rows server) : property server.committed := by
  induction reachable with
  | refl => exact initial
  | tail rest step induction =>
      have sound := contract.reachable_sound certified holds rest
      rcases sound.step_effect step with same | ⟨result, rows, effect, equal⟩
      · rw [same]
        exact induction
      · rw [equal]
        exact kept sound.invariant induction effect

/-! ## One transaction among others -/

/-- A step that leaves the transaction of a session open. -/
def Step.Open (programs : Program Row Failure Result → Prop) (session : Nat)
    (server next : Server Row Failure Result) : Prop :=
  Step programs server next ∧ next.transactions session ≠ none

theorem Contract.Sound.ensures_step (sound : contract.Sound server)
    {post : Result → Workspace Row → Committed Row Result → Prop}
    {failed : Failure → Workspace Row → Committed Row Result → Prop} {session : Nat}
    {before after : Transaction Row Failure Result}
    (current : server.transactions session = some before)
    (ensures : contract.Ensures post failed before server.committed)
    (step : Step programs server next)
    (stays : next.transactions session = some after) :
    contract.Ensures post failed after next.committed := by
  cases step with
  | begin other program idle admitted =>
      rcases Server.withTransaction_cases stays with ⟨rfl, _⟩ | ⟨_, old⟩
      · exact nomatch idle.symm.trans current
      · cases current.symm.trans old
        exact ensures
  | statement other transaction later sending sent =>
      rcases Server.withTransaction_cases stays with ⟨rfl, same⟩ | ⟨_, old⟩
      · cases current.symm.trans sending
        cases same
        exact sent.ensures sound.invariant ensures
      · cases current.symm.trans old
        exact ensures
  | rollback other transaction ending =>
      rcases Server.withTransaction_cases stays with ⟨_, absent⟩ | ⟨_, old⟩
      · exact nomatch absent
      · cases current.symm.trans old
        exact ensures
  | commit other workspace result ending =>
      rcases Server.withTransaction_cases stays with ⟨_, absent⟩ | ⟨different, old⟩
      · exact nomatch absent
      · cases current.symm.trans old
        exact ensures.later (.single (sound.commit_foreign ending current different.symm))

/-- What a program ensures at its begin it still ensures after any steps of any
sessions. -/
theorem Contract.Sound.ensured (sound : contract.Sound server)
    (certified : ∀ program, programs program → contract.Certifies program)
    {post : Result → Workspace Row → Committed Row Result → Prop}
    {failed : Failure → Workspace Row → Committed Row Result → Prop} {session : Nat}
    {program : Program Row Failure Result} (admitted : programs program)
    (idle : server.transactions session = none)
    (ensures : contract.Ensures post failed ⟨.fresh, program⟩ server.committed)
    {last : Server Row Failure Result}
    (run : Relation.ReflTransGen (Step.Open programs session)
      (server.withTransaction session (some ⟨.fresh, program⟩)) last) :
    contract.Sound last ∧ ∃ transaction,
      last.transactions session = some transaction ∧
      contract.Wp transaction.program post failed transaction.workspace
        last.committed := by
  have tracked : contract.Sound last ∧ ∃ transaction,
      last.transactions session = some transaction ∧
      contract.Ensures post failed transaction last.committed := by
    induction run with
    | refl =>
        refine ⟨sound.step certified (.begin server session program idle admitted),
          _, ?_, ensures⟩
        simp [Server.withTransaction]
    | tail _ step induction =>
        rcases induction with ⟨between, before, current, ensured⟩
        rcases Option.ne_none_iff_exists'.mp step.2 with ⟨after, stays⟩
        exact ⟨between.step certified step.1, after, stays,
          between.ensures_step current ensured step.1 stays⟩
  rcases tracked with ⟨between, transaction, current, ensured⟩
  exact ⟨between, transaction, current,
    ensured last.committed (.refl _) between.invariant⟩

end Servers

end MeridianPostgreSQL.ReadCommitted
