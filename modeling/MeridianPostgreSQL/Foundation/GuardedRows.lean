import MeridianPostgreSQL.Foundation.TransactionSoundness

/-! # Guarded rows

A row may be guarded by the lock of another: every transaction that writes the
row commits while it holds that lock. A transaction that holds the lock may
then rely on the row as if it had locked the row itself. -/

namespace MeridianPostgreSQL.ReadCommitted

variable {Key : Type} {Row : Key → Type} {Failure Result α β : Type}

/-- The transaction holds the guard of every row it has written. -/
def Workspace.Guarded (guard : Key → Option Key) (workspace : Workspace Row) : Prop :=
  ∀ key lock, workspace.writes key ≠ none → guard key = some lock →
    lock ∈ workspace.locks

/-- The rows that stay as they are while `locks` are held. -/
def shielded (guard : Key → Option Key) (locks : Set Key) : Set Key :=
  { key | key ∈ locks ∨ ∃ lock ∈ locks, guard key = some lock }

theorem subset_shielded (guard : Key → Option Key) (locks : Set Key) :
    locks ⊆ shielded guard locks :=
  fun _ locked => .inl locked

theorem mem_shielded {guard : Key → Option Key} {locks : Set Key} {key lock : Key}
    (guarded : guard key = some lock) (locked : lock ∈ locks) :
    key ∈ shielded guard locks :=
  .inr ⟨lock, locked, guarded⟩

theorem Workspace.Unwritten.guarded {guard : Key → Option Key}
    {workspace : Workspace Row} (unwritten : workspace.Unwritten) :
    workspace.Guarded guard := by
  intro key lock written
  rw [unwritten] at written
  exact absurd rfl written

theorem Workspace.Guarded.record [DecidableEq Key] {guard : Key → Option Key}
    {workspace : Workspace Row} (guarded : workspace.Guarded guard) (key : Key)
    (held : ∀ lock, guard key = some lock → lock ∈ workspace.locks)
    (change : Change (Row key)) : (workspace.record key change).Guarded guard := by
  have updated : ∀ row : Option (Row key), ∀ other lock,
      Function.update workspace.writes key (some row) other ≠ none →
      guard other = some lock → lock ∈ insert key workspace.locks := by
    intro row other lock written found
    by_cases same : other = key
    · subst other
      exact Set.mem_insert_of_mem _ (held lock found)
    · rw [Function.update_of_ne same] at written
      exact Set.mem_insert_of_mem _ (guarded other lock written found)
  cases change with
  | keep => exact guarded
  | put row => exact updated (some row)
  | delete => exact updated none

/-- A contract that allows more effects. -/
structure Contract.Refines (strong weak : Contract Row Result) : Prop where
  invariant : ∀ {committed}, strong.Invariant committed → weak.Invariant committed
  effect : ∀ {committed result rows}, strong.Effect committed result rows →
    weak.Effect committed result rows

theorem Contract.Interferes.weaken {strong weak : Contract Row Result}
    {locks : Set Key} {before after : Committed Row Result}
    (refines : strong.Refines weak) (interferes : strong.Interferes locks before after) :
    weak.Interferes locks before after := by
  have foreign : strong.Foreign locks ≤ weak.Foreign locks := by
    rintro left right ⟨result, rows, effect, equal, unchanged⟩
    exact ⟨result, rows, refines.effect effect, equal, unchanged⟩
  exact Relation.ReflTransGen.mono foreign _ _ interferes

/-! ## Programs that rely on guarded rows -/

section Programs

variable [DecidableEq Key]

/-- The program meets `post` when it finishes, whatever other transactions
commit between its statements to rows that its locks do not shield. -/
def Contract.Relies (contract : Contract Row Result) (guard : Key → Option Key)
    (program : Program Row Failure α)
    (post : α → Workspace Row → Committed Row Result → Prop)
    (workspace : Workspace Row) (committed : Committed Row Result) : Prop :=
  match program with
  | .finish result => post result workspace committed
  | .fail _ => True
  | .clock next => ∀ reading,
      contract.Relies guard (next reading) post workspace committed
  | .refuse next => ∀ refused,
      contract.Relies guard (next refused) post workspace committed
  | .read next => contract.Stable (shielded guard workspace.locks) committed
      (contract.Relies guard (next (overlay workspace.writes committed.rows)) post
        workspace)
  | .scan wanted next => ∀ keys : List Key, keys.Nodup →
      (∀ key, key ∈ keys ↔
        wanted (overlay workspace.writes committed.rows) key = true) →
      contract.Stable (shielded guard workspace.locks) committed
        (contract.Relies guard (next (overlay workspace.writes committed.rows) keys)
          post workspace)
  | .lock key next =>
      let row := overlay workspace.writes committed.rows key
      contract.Stable (shielded guard (workspace.lockRow key row).locks) committed
        (contract.Relies guard (next row) post (workspace.lockRow key row))
  | .lockSkipLocked key next =>
      contract.Stable (shielded guard workspace.locks) committed
        (contract.Relies guard (next false) post workspace) ∧
      contract.Stable (shielded guard (insert key workspace.locks)) committed
        (contract.Relies guard (next true) post
          { workspace with locks := insert key workspace.locks })
  | .modify key change next =>
      let made := change (overlay workspace.writes committed.rows key)
      contract.Stable (shielded guard (workspace.record key made).locks) committed
        (contract.Relies guard (next made) post (workspace.record key made))
  | .savepoint next =>
      contract.Relies guard next post
        { workspace with
          saved := (workspace.writes, workspace.locks) :: workspace.saved }
        committed
  | .rollbackTo next =>
      match workspace.saved with
      | [] => True
      | (writes, locks) :: saved =>
          contract.Stable (shielded guard locks) committed
            (contract.Relies guard next post ⟨writes, locks, saved⟩)
  | .release next =>
      match workspace.saved with
      | [] => True
      | _ :: saved =>
          contract.Relies guard next post { workspace with saved := saved } committed

variable {contract : Contract Row Result} {guard : Key → Option Key}
  {workspace : Workspace Row} {committed : Committed Row Result}

theorem Contract.relies_bind {program : Program Row Failure α}
    {next : α → Program Row Failure β}
    {post : β → Workspace Row → Committed Row Result → Prop} :
    contract.Relies guard (program >>= next) post workspace committed ↔
      contract.Relies guard program
        (fun result => contract.Relies guard (next result) post) workspace
        committed := by
  change contract.Relies guard (program.handle next .fail) post workspace committed ↔ _
  induction program generalizing workspace committed with
  | finish result => exact Iff.rfl
  | fail failure => exact Iff.rfl
  | clock next induction | refuse next induction =>
      exact forall_congr' fun reading => induction reading
  | read next induction => exact forall₃_congr fun later _ _ => induction _
  | scan wanted next induction =>
      refine forall₃_congr fun keys _ _ => ?_
      exact forall₃_congr fun later _ _ => induction _ keys
  | lock key next induction => exact forall₃_congr fun later _ _ => induction _
  | lockSkipLocked key next induction =>
      exact and_congr (forall₃_congr fun later _ _ => induction false)
        (forall₃_congr fun later _ _ => induction true)
  | modify key change next induction => exact forall₃_congr fun later _ _ => induction _
  | savepoint next induction => exact induction
  | rollbackTo next induction =>
      simp only [Program.handle, Contract.Relies]
      cases workspace.saved with
      | nil => exact Iff.rfl
      | cons entry saved => exact forall₃_congr fun later _ _ => induction
  | release next induction =>
      simp only [Program.handle, Contract.Relies]
      cases workspace.saved with
      | nil => exact Iff.rfl
      | cons entry saved => exact induction

@[simp] theorem Contract.relies_pure {result : α}
    {post : α → Workspace Row → Committed Row Result → Prop} :
    contract.Relies guard (pure result : Program Row Failure α) post workspace
      committed ↔ post result workspace committed :=
  Iff.rfl

@[simp] theorem Contract.relies_fail {failure : Failure}
    {post : α → Workspace Row → Committed Row Result → Prop} :
    contract.Relies guard (.fail failure : Program Row Failure α) post workspace
      committed :=
  trivial

theorem Contract.relies_select
    {post : Store Row → Workspace Row → Committed Row Result → Prop} :
    contract.Relies guard (.select : Program Row Failure (Store Row)) post workspace
      committed ↔
      contract.Stable (shielded guard workspace.locks) committed
        (post (overlay workspace.writes committed.rows) workspace) :=
  Iff.rfl

theorem Contract.relies_selectKeys {wanted : Store Row → Key → Bool}
    {post : Store Row × List Key → Workspace Row → Committed Row Result → Prop} :
    contract.Relies guard (.selectKeys wanted : Program Row Failure _) post workspace
      committed ↔
      ∀ keys : List Key, keys.Nodup →
        (∀ key, key ∈ keys ↔
          wanted (overlay workspace.writes committed.rows) key = true) →
        contract.Stable (shielded guard workspace.locks) committed
          (post (overlay workspace.writes committed.rows, keys) workspace) :=
  Iff.rfl

theorem Contract.relies_selectForUpdate {key : Key}
    {post : Option (Row key) → Workspace Row → Committed Row Result → Prop} :
    contract.Relies guard (.selectForUpdate key : Program Row Failure _) post workspace
      committed ↔
      let row := overlay workspace.writes committed.rows key
      contract.Stable (shielded guard (workspace.lockRow key row).locks) committed
        (post row (workspace.lockRow key row)) :=
  Iff.rfl

theorem Contract.relies_skipLocked {key : Key}
    {post : Bool → Workspace Row → Committed Row Result → Prop} :
    contract.Relies guard (.skipLocked key : Program Row Failure Bool) post workspace
      committed ↔
      contract.Stable (shielded guard workspace.locks) committed (post false workspace) ∧
      contract.Stable (shielded guard (insert key workspace.locks)) committed
        (post true { workspace with locks := insert key workspace.locks }) :=
  Iff.rfl

theorem Contract.relies_write {key : Key}
    {change : Option (Row key) → Change (Row key)}
    {post : Change (Row key) → Workspace Row → Committed Row Result → Prop} :
    contract.Relies guard (.write key change : Program Row Failure _) post workspace
      committed ↔
      let made := change (overlay workspace.writes committed.rows key)
      contract.Stable (shielded guard (workspace.record key made).locks) committed
        (post made (workspace.record key made)) :=
  Iff.rfl

/-- Two postconditions hold together. -/
theorem Contract.Relies.and {program : Program Row Failure α}
    {post post' both : α → Workspace Row → Committed Row Result → Prop}
    (first : contract.Relies guard program post workspace committed)
    (second : contract.Relies guard program post' workspace committed)
    (joined : ∀ result workspace committed, post result workspace committed →
      post' result workspace committed → both result workspace committed) :
    contract.Relies guard program both workspace committed := by
  induction program generalizing workspace committed with
  | finish result => exact joined _ _ _ first second
  | fail failure => trivial
  | clock next induction | refuse next induction =>
      exact fun reading => induction reading (first reading) (second reading)
  | read next induction | lock key next induction | modify key change next induction =>
      exact fun later interferes holds =>
        induction _ (first later interferes holds) (second later interferes holds)
  | scan wanted next induction =>
      exact fun keys nodup complete later interferes holds => induction _ keys
        (first keys nodup complete later interferes holds)
        (second keys nodup complete later interferes holds)
  | lockSkipLocked key next induction =>
      exact ⟨fun later interferes holds => induction false
          (first.1 later interferes holds) (second.1 later interferes holds),
        fun later interferes holds => induction true
          (first.2 later interferes holds) (second.2 later interferes holds)⟩
  | savepoint next induction => exact induction first second
  | rollbackTo next induction =>
      simp only [Contract.Relies] at first second ⊢
      cases saved : workspace.saved with
      | nil => trivial
      | cons entry rest =>
          rw [saved] at first second
          exact fun later interferes holds =>
            induction (first later interferes holds) (second later interferes holds)
  | release next induction =>
      simp only [Contract.Relies] at first second ⊢
      cases saved : workspace.saved with
      | nil => trivial
      | cons entry rest =>
          rw [saved] at first second
          exact induction first second

theorem Contract.Relies.mono {program : Program Row Failure α}
    {post post' : α → Workspace Row → Committed Row Result → Prop}
    (relies : contract.Relies guard program post workspace committed)
    (finished : ∀ result workspace committed,
      post result workspace committed → post' result workspace committed) :
    contract.Relies guard program post' workspace committed :=
  relies.and relies fun result workspace committed holds _ =>
    finished result workspace committed holds

/-- What holds when other transactions spare the locked rows holds when they
spare the shielded ones. -/
theorem Contract.Yields.relies {weak : Contract Row Result}
    (refines : contract.Refines weak) {program : Program Row Failure α}
    {post : α → Workspace Row → Committed Row Result → Prop}
    (yields : weak.Yields program post workspace committed) :
    contract.Relies guard program post workspace committed := by
  have stable : ∀ {locks : Set Key} {start : Committed Row Result}
      {property : Committed Row Result → Prop}, weak.Stable locks start property →
      contract.Stable (shielded guard locks) start property :=
    fun holds later interferes invariant => holds later
      ((interferes.mono (subset_shielded guard _)).weaken refines)
      (refines.invariant invariant)
  induction program generalizing workspace committed with
  | finish result => exact yields
  | fail failure => trivial
  | clock next induction | refuse next induction =>
      exact fun reading => induction reading (yields reading)
  | read next induction | lock key next induction | modify key change next induction =>
      exact fun later interferes holds => induction _ (stable yields later interferes holds)
  | scan wanted next induction =>
      exact fun keys nodup complete later interferes holds => induction _ keys
        (stable (yields keys nodup complete) later interferes holds)
  | lockSkipLocked key next induction =>
      exact ⟨fun later interferes holds => induction false
          (stable yields.1 later interferes holds),
        fun later interferes holds => induction true
          (stable yields.2 later interferes holds)⟩
  | savepoint next induction => exact induction yields
  | rollbackTo next induction =>
      simp only [Contract.Yields, Contract.Wp, Contract.Relies] at yields ⊢
      cases saved : workspace.saved with
      | nil => trivial
      | cons entry rest =>
          rw [saved] at yields
          exact fun later interferes holds =>
            induction (stable yields later interferes holds)
  | release next induction =>
      simp only [Contract.Yields, Contract.Wp, Contract.Relies] at yields ⊢
      cases saved : workspace.saved with
      | nil => trivial
      | cons entry rest =>
          rw [saved] at yields
          exact induction yields

end Programs

/-! ## Servers -/

section Servers

variable [DecidableEq Key] {contract weak : Contract Row Result}
  {guard : Key → Option Key} {programs : Program Row Failure Result → Prop}
  {server next : Server Row Failure Result}

/-- Committing the finished program has an allowed effect on guarded rows. -/
def Contract.CommitsGuarded (contract : Contract Row Result)
    (guard : Key → Option Key) (result : Result) (workspace : Workspace Row)
    (committed : Committed Row Result) : Prop :=
  contract.Commits result workspace committed ∧ workspace.Guarded guard

/-- A program that keeps the contract while it relies on guarded rows. -/
def Contract.CertifiesGuarded (contract : Contract Row Result)
    (guard : Key → Option Key) (program : Program Row Failure Result) : Prop :=
  ∀ committed, contract.Invariant committed →
    contract.Relies guard program (contract.CommitsGuarded guard) .fresh committed

/-- What a transaction relies on, now and after others commit. -/
def Contract.Covers (contract : Contract Row Result) (guard : Key → Option Key)
    (transaction : Transaction Row Failure Result) (committed : Committed Row Result) :
    Prop :=
  contract.Stable (shielded guard transaction.workspace.locks) committed
    (contract.Relies guard transaction.program (contract.CommitsGuarded guard)
      transaction.workspace)

/-- Every open transaction of the server is covered. -/
structure Contract.Guarded (contract : Contract Row Result) (guard : Key → Option Key)
    (server : Server Row Failure Result) : Prop where
  invariant : contract.Invariant server.committed
  covers : ∀ {session transaction},
    server.transactions session = some transaction →
    contract.Covers guard transaction server.committed

theorem Statement.covers {committed : Committed Row Result} {held : Set Key}
    {before after : Transaction Row Failure Result}
    (statement : Statement committed.rows held before after)
    (invariant : contract.Invariant committed)
    (covers : contract.Covers guard before committed) :
    contract.Covers guard after committed := by
  have now := covers committed (.refl committed) invariant
  cases statement with
  | clock workspace next reading =>
      exact fun later interferes holds => covers later interferes holds reading
  | refuse workspace next refused =>
      exact fun later interferes holds => covers later interferes holds refused
  | read | lock | modify => exact now
  | scan workspace wanted next keys nodup complete => exact now keys nodup complete
  | lockSkipped workspace key next => exact now.1
  | lockTaken workspace key next => exact now.2
  | savepoint workspace next =>
      exact fun later interferes holds => covers later interferes holds
  | rollbackTo workspace writes locks saved next outer =>
      simp only [Contract.Relies, outer] at now
      exact now
  | release workspace entry saved next outer =>
      intro later interferes holds
      have next := covers later interferes holds
      simp only [Contract.Relies, outer] at next
      exact next

theorem Contract.Guarded.initial {rows : Store Row}
    (holds : contract.Invariant ⟨rows, []⟩) :
    contract.Guarded guard (.initial rows : Server Row Failure Result) where
  invariant := holds
  covers := fun present => nomatch present

theorem Contract.Guarded.replace (guarded : contract.Guarded guard server)
    (session : Nat) (transaction : Option (Transaction Row Failure Result))
    (covers : ∀ found, transaction = some found →
      contract.Covers guard found server.committed) :
    contract.Guarded guard (server.withTransaction session transaction) where
  invariant := guarded.invariant
  covers := by
    intro other found present
    rcases Server.withTransaction_cases present with ⟨rfl, new⟩ | ⟨_, old⟩
    · exact covers found new
    · exact guarded.covers old

theorem Contract.Guarded.commit_effect (guarded : contract.Guarded guard server)
    {session : Nat} {workspace : Workspace Row} {result : Result}
    (current : server.transactions session = some ⟨workspace, .finish result⟩) :
    contract.CommitsGuarded guard result workspace server.committed :=
  guarded.covers current server.committed (.refl _) guarded.invariant

/-- A commit leaves the rows alone that another transaction shields. -/
theorem Contract.Guarded.commit_foreign (guarded : contract.Guarded guard server)
    (sound : weak.Sound server) {session other : Nat} {workspace : Workspace Row}
    {result : Result} {transaction : Transaction Row Failure Result}
    (current : server.transactions session = some ⟨workspace, .finish result⟩)
    (present : server.transactions other = some transaction)
    (different : session ≠ other) :
    contract.Foreign (shielded guard transaction.workspace.locks) server.committed
      (server.committed.extend result
        (overlay workspace.writes server.committed.rows)) := by
  have effect := guarded.commit_effect current
  refine ⟨result, _, effect.1, rfl, fun key shielded => ?_⟩
  apply overlay_of_unwritten
  by_contra written
  have apart := sound.exclusive current present different
  rcases shielded with locked | ⟨lock, locked, needed⟩
  · exact apart key ((sound.disciplined current).covered key written) locked
  · exact apart lock (effect.2 key lock written needed) locked

theorem Contract.Guarded.step (guarded : contract.Guarded guard server)
    (sound : weak.Sound server)
    (certified : ∀ program, programs program → contract.CertifiesGuarded guard program)
    (step : Step programs server next) : contract.Guarded guard next := by
  cases step with
  | begin session program idle admitted =>
      apply guarded.replace
      rintro found ⟨⟩
      exact fun later _ holds => certified program admitted later holds
  | statement session transaction after current sent =>
      apply guarded.replace
      rintro found ⟨⟩
      exact sent.covers guarded.invariant (guarded.covers current)
  | rollback session transaction current =>
      apply guarded.replace
      exact fun found absent => nomatch absent
  | commit session workspace result current =>
      refine ⟨contract.preserved guarded.invariant (guarded.commit_effect current).1, ?_⟩
      intro other transaction present
      rcases Server.withTransaction_cases present with ⟨_, absent⟩ | ⟨different, old⟩
      · exact nomatch absent
      · have foreign := guarded.commit_foreign sound current old different.symm
        exact fun later interferes => guarded.covers old later (.head foreign interferes)

/-- Programs certified on guarded rows keep every reachable server guarded. -/
theorem Contract.reachable_guarded {rows : Store Row}
    (weakly : ∀ program, programs program → weak.Certifies program)
    (certified : ∀ program, programs program → contract.CertifiesGuarded guard program)
    (refines : contract.Refines weak) (holds : contract.Invariant ⟨rows, []⟩)
    (reachable : Reachable programs rows server) : contract.Guarded guard server := by
  induction reachable with
  | refl => exact .initial holds
  | tail rest step induction =>
      exact induction.step (weak.reachable_sound weakly (refines.invariant holds) rest)
        certified step

theorem Contract.Guarded.step_effect (guarded : contract.Guarded guard server)
    (step : Step programs server next) :
    next.committed = server.committed ∨
      ∃ result rows, contract.Effect server.committed result rows ∧
        next.committed = server.committed.extend result rows := by
  cases step with
  | begin | statement | rollback => exact .inl rfl
  | commit session workspace result current =>
      exact .inr ⟨result, _, (guarded.commit_effect current).1, rfl⟩

end Servers

end MeridianPostgreSQL.ReadCommitted
