import MeridianPostgreSQL.Foundation.ReadCommitted

/-! # Contracts for read-committed transactions

A contract fixes an invariant of the committed rows and the effect a commit
may have. A program is certified when its commit has such an effect however
the commits of other transactions fall between its statements. Certified
programs then run interleaved as if every commit were one atomic effect. -/

namespace MeridianPostgreSQL.ReadCommitted

variable {Key : Type} {Row : Key → Type} {Failure Result α β : Type}

/-- What holds of the committed state, and what one commit may do to it. -/
structure Contract {Key : Type} (Row : Key → Type) (Result : Type) where
  Invariant : Committed Row Result → Prop
  Effect : Committed Row Result → Result → Store Row → Prop
  preserved : ∀ {committed result rows}, Invariant committed →
    Effect committed result rows → Invariant (committed.extend result rows)

/-- One commit of another transaction, which leaves locked rows alone. -/
def Contract.Foreign (contract : Contract Row Result) (locks : Set Key)
    (before after : Committed Row Result) : Prop :=
  ∃ result rows, contract.Effect before result rows ∧
    after = before.extend result rows ∧
    ∀ key, key ∈ locks → rows key = before.rows key

/-- Any number of commits of other transactions. -/
def Contract.Interferes (contract : Contract Row Result) (locks : Set Key) :
    Committed Row Result → Committed Row Result → Prop :=
  Relation.ReflTransGen (contract.Foreign locks)

namespace Contract.Interferes

variable {contract : Contract Row Result} {locks fewer : Set Key}
  {before middle after : Committed Row Result}

theorem refl (committed : Committed Row Result) :
    contract.Interferes locks committed committed :=
  Relation.ReflTransGen.refl

theorem trans (first : contract.Interferes locks before middle)
    (second : contract.Interferes locks middle after) :
    contract.Interferes locks before after :=
  Relation.ReflTransGen.trans first second

/-- Holding fewer locks admits more interference. -/
theorem mono (interferes : contract.Interferes locks before after)
    (subset : fewer ⊆ locks) : contract.Interferes fewer before after := by
  have weaker : contract.Foreign locks ≤ contract.Foreign fewer := by
    rintro left right ⟨result, rows, effect, equal, unchanged⟩
    exact ⟨result, rows, effect, equal, fun key member =>
      unchanged key (subset member)⟩
  exact Relation.ReflTransGen.mono weaker _ _ interferes

/-- A locked row keeps its committed value. -/
theorem row_eq (interferes : contract.Interferes locks before after)
    {key : Key} (member : key ∈ locks) : after.rows key = before.rows key := by
  induction interferes with
  | refl => rfl
  | tail _ step induction =>
      rcases step with ⟨result, rows, _, rfl, unchanged⟩
      exact (unchanged key member).trans induction

theorem invariant (interferes : contract.Interferes locks before after)
    (holds : contract.Invariant before) : contract.Invariant after := by
  induction interferes with
  | refl => exact holds
  | tail _ step induction =>
      rcases step with ⟨result, rows, effect, rfl, _⟩
      exact contract.preserved induction effect

/-- A relation that every effect respects relates the two ends. -/
theorem relates (Related : Committed Row Result → Committed Row Result → Prop)
    (interferes : contract.Interferes locks before after)
    (holds : contract.Invariant before)
    (reflexive : ∀ committed, Related committed committed)
    (transitive : ∀ {first second third}, Related first second →
      Related second third → Related first third)
    (effects : ∀ {committed result rows}, contract.Invariant committed →
      contract.Effect committed result rows →
      Related committed (committed.extend result rows)) :
    Related before after := by
  induction interferes with
  | refl => exact reflexive before
  | tail rest step induction =>
      rcases step with ⟨result, rows, effect, rfl, _⟩
      exact transitive induction (effects (invariant rest holds) effect)

end Contract.Interferes

/-- `property` holds now and after any interference that spares `locks`. -/
def Contract.Stable (contract : Contract Row Result) (locks : Set Key)
    (committed : Committed Row Result)
    (property : Committed Row Result → Prop) : Prop :=
  ∀ later, contract.Interferes locks committed later →
    contract.Invariant later → property later

/-! ## Weakest preconditions -/

section Preconditions

variable [DecidableEq Key]

/-- The program meets `post` when it finishes and `failed` when it fails,
whatever other transactions commit between its statements. -/
def Contract.Wp (contract : Contract Row Result)
    (program : Program Row Failure α)
    (post : α → Workspace Row → Committed Row Result → Prop)
    (failed : Failure → Workspace Row → Committed Row Result → Prop)
    (workspace : Workspace Row) (committed : Committed Row Result) : Prop :=
  match program with
  | .finish result => post result workspace committed
  | .fail failure => failed failure workspace committed
  | .clock next => ∀ reading,
      contract.Wp (next reading) post failed workspace committed
  | .refuse next => ∀ refused,
      contract.Wp (next refused) post failed workspace committed
  | .read next => contract.Stable workspace.locks committed
      (contract.Wp (next (overlay workspace.writes committed.rows)) post failed
        workspace)
  | .scan wanted next => ∀ keys : List Key, keys.Nodup →
      (∀ key, key ∈ keys ↔
        wanted (overlay workspace.writes committed.rows) key = true) →
      contract.Stable workspace.locks committed
        (contract.Wp (next (overlay workspace.writes committed.rows) keys) post
          failed workspace)
  | .lock key next =>
      let row := overlay workspace.writes committed.rows key
      contract.Stable (workspace.lockRow key row).locks committed
        (contract.Wp (next row) post failed (workspace.lockRow key row))
  | .lockSkipLocked key next =>
      contract.Stable workspace.locks committed
        (contract.Wp (next false) post failed workspace) ∧
      contract.Stable (insert key workspace.locks) committed
        (contract.Wp (next true) post failed
          { workspace with locks := insert key workspace.locks })
  | .modify key change next =>
      let made := change (overlay workspace.writes committed.rows key)
      contract.Stable (workspace.record key made).locks committed
        (contract.Wp (next made) post failed (workspace.record key made))
  | .savepoint next =>
      contract.Wp next post failed
        { workspace with
          saved := (workspace.writes, workspace.locks) :: workspace.saved }
        committed
  | .rollbackTo next =>
      match workspace.saved with
      | [] => True
      | (writes, locks) :: saved =>
          contract.Stable locks committed
            (contract.Wp next post failed ⟨writes, locks, saved⟩)
  | .release next =>
      match workspace.saved with
      | [] => True
      | _ :: saved =>
          contract.Wp next post failed { workspace with saved := saved }
            committed

/-- Continuing a program composes its precondition. -/
theorem Contract.wp_handle (contract : Contract Row Result)
    (program : Program Row Failure α)
    (finished : α → Program Row Failure β)
    (fallen : Failure → Program Row Failure β)
    (post : β → Workspace Row → Committed Row Result → Prop)
    (failed : Failure → Workspace Row → Committed Row Result → Prop)
    (workspace : Workspace Row) (committed : Committed Row Result) :
    contract.Wp (program.handle finished fallen) post failed workspace committed ↔
      contract.Wp program
        (fun result => contract.Wp (finished result) post failed)
        (fun failure => contract.Wp (fallen failure) post failed)
        workspace committed := by
  induction program generalizing workspace committed with
  | finish result => exact Iff.rfl
  | fail failure => exact Iff.rfl
  | clock next induction =>
      exact forall_congr' fun reading => induction reading workspace committed
  | refuse next induction =>
      exact forall_congr' fun refused => induction refused workspace committed
  | read next induction =>
      exact forall₃_congr fun later _ _ => induction _ workspace later
  | scan wanted next induction =>
      refine forall₃_congr fun keys _ _ => ?_
      exact forall₃_congr fun later _ _ => induction _ keys workspace later
  | lock key next induction =>
      exact forall₃_congr fun later _ _ => induction _ _ later
  | lockSkipLocked key next induction =>
      exact and_congr
        (forall₃_congr fun later _ _ => induction false workspace later)
        (forall₃_congr fun later _ _ => induction true _ later)
  | modify key change next induction =>
      exact forall₃_congr fun later _ _ => induction _ _ later
  | savepoint next induction => exact induction _ committed
  | rollbackTo next induction =>
      simp only [Program.handle, Contract.Wp]
      cases workspace.saved with
      | nil => exact Iff.rfl
      | cons entry saved =>
          exact forall₃_congr fun later _ _ => induction _ later
  | release next induction =>
      simp only [Program.handle, Contract.Wp]
      cases workspace.saved with
      | nil => exact Iff.rfl
      | cons entry saved => exact induction _ committed

theorem Contract.wp_bind (contract : Contract Row Result)
    (program : Program Row Failure α) (next : α → Program Row Failure β)
    (post : β → Workspace Row → Committed Row Result → Prop)
    (failed : Failure → Workspace Row → Committed Row Result → Prop)
    (workspace : Workspace Row) (committed : Committed Row Result) :
    contract.Wp (program >>= next) post failed workspace committed ↔
      contract.Wp program (fun result => contract.Wp (next result) post failed)
        failed workspace committed :=
  contract.wp_handle program next .fail post failed workspace committed

@[simp] theorem Contract.wp_pure {contract : Contract Row Result} {result : α}
    {post : α → Workspace Row → Committed Row Result → Prop}
    {failed : Failure → Workspace Row → Committed Row Result → Prop}
    {workspace : Workspace Row} {committed : Committed Row Result} :
    contract.Wp (pure result) post failed workspace committed ↔
      post result workspace committed :=
  Iff.rfl

theorem Contract.wp_timestamp {contract : Contract Row Result}
    {post : Int → Workspace Row → Committed Row Result → Prop}
    {failed : Failure → Workspace Row → Committed Row Result → Prop}
    {workspace : Workspace Row} {committed : Committed Row Result} :
    contract.Wp .timestamp post failed workspace committed ↔
      ∀ reading, post reading workspace committed :=
  Iff.rfl

theorem Contract.wp_select {contract : Contract Row Result}
    {post : Store Row → Workspace Row → Committed Row Result → Prop}
    {failed : Failure → Workspace Row → Committed Row Result → Prop}
    {workspace : Workspace Row} {committed : Committed Row Result} :
    contract.Wp .select post failed workspace committed ↔
      contract.Stable workspace.locks committed
        (post (overlay workspace.writes committed.rows) workspace) :=
  Iff.rfl

theorem Contract.wp_write {contract : Contract Row Result} {key : Key}
    {change : Option (Row key) → Change (Row key)}
    {post : Change (Row key) → Workspace Row → Committed Row Result → Prop}
    {failed : Failure → Workspace Row → Committed Row Result → Prop}
    {workspace : Workspace Row} {committed : Committed Row Result} :
    contract.Wp (.write key change) post failed workspace committed ↔
      let made := change (overlay workspace.writes committed.rows key)
      contract.Stable (workspace.record key made).locks committed
        (post made (workspace.record key made)) :=
  Iff.rfl

theorem Contract.wp_unlessRefused {contract : Contract Row Result} {failure : Failure}
    {post : Unit → Workspace Row → Committed Row Result → Prop}
    {failed : Failure → Workspace Row → Committed Row Result → Prop}
    {workspace : Workspace Row} {committed : Committed Row Result}
    (refused : failed failure workspace committed)
    (holds : post () workspace committed) :
    contract.Wp (.unlessRefused failure) post failed workspace committed := by
  intro answer
  cases answer with
  | true => exact refused
  | false => exact holds

theorem Contract.wp_selectForUpdate {contract : Contract Row Result} {key : Key}
    {post : Option (Row key) → Workspace Row → Committed Row Result → Prop}
    {failed : Failure → Workspace Row → Committed Row Result → Prop}
    {workspace : Workspace Row} {committed : Committed Row Result} :
    contract.Wp (.selectForUpdate key) post failed workspace committed ↔
      let row := overlay workspace.writes committed.rows key
      contract.Stable (workspace.lockRow key row).locks committed
        (post row (workspace.lockRow key row)) :=
  Iff.rfl

/-- A stronger pair of postconditions serves a weaker one. -/
theorem Contract.Wp.mono {contract : Contract Row Result}
    {program : Program Row Failure α}
    {post post' : α → Workspace Row → Committed Row Result → Prop}
    {failed failed' : Failure → Workspace Row → Committed Row Result → Prop}
    {workspace : Workspace Row} {committed : Committed Row Result}
    (holds : contract.Wp program post failed workspace committed)
    (finished : ∀ result workspace committed,
      post result workspace committed → post' result workspace committed)
    (fallen : ∀ failure workspace committed,
      failed failure workspace committed → failed' failure workspace committed) :
    contract.Wp program post' failed' workspace committed := by
  induction program generalizing workspace committed with
  | finish result => exact finished _ _ _ holds
  | fail failure => exact fallen _ _ _ holds
  | clock next induction => exact fun reading => induction reading (holds reading)
  | refuse next induction => exact fun refused => induction refused (holds refused)
  | read next induction =>
      exact fun later interferes invariant =>
        induction _ (holds later interferes invariant)
  | scan wanted next induction =>
      exact fun keys nodup complete later interferes invariant =>
        induction _ keys (holds keys nodup complete later interferes invariant)
  | lock key next induction =>
      exact fun later interferes invariant =>
        induction _ (holds later interferes invariant)
  | lockSkipLocked key next induction =>
      exact ⟨fun later interferes invariant =>
          induction false (holds.1 later interferes invariant),
        fun later interferes invariant =>
          induction true (holds.2 later interferes invariant)⟩
  | modify key change next induction =>
      exact fun later interferes invariant =>
        induction _ (holds later interferes invariant)
  | savepoint next induction => exact induction holds
  | rollbackTo next induction =>
      simp only [Contract.Wp] at holds ⊢
      cases saved : workspace.saved with
      | nil => trivial
      | cons entry rest =>
          rw [saved] at holds
          exact fun later interferes invariant =>
            induction (holds later interferes invariant)
  | release next induction =>
      simp only [Contract.Wp] at holds ⊢
      cases saved : workspace.saved with
      | nil => trivial
      | cons entry rest =>
          rw [saved] at holds
          exact induction holds

/-! ## Programs whose failures roll back -/

/-- The program meets `post` when it finishes. A failure is rolled back and
needs nothing. -/
def Contract.Yields (contract : Contract Row Result)
    (program : Program Row Failure α)
    (post : α → Workspace Row → Committed Row Result → Prop)
    (workspace : Workspace Row) (committed : Committed Row Result) : Prop :=
  contract.Wp program post (fun _ _ _ => True) workspace committed

section Statements

variable {contract : Contract Row Result} {workspace : Workspace Row}
  {committed : Committed Row Result}

theorem Contract.yields_bind {program : Program Row Failure α}
    {next : α → Program Row Failure β}
    {post : β → Workspace Row → Committed Row Result → Prop} :
    contract.Yields (program >>= next) post workspace committed ↔
      contract.Yields program (fun result => contract.Yields (next result) post)
        workspace committed :=
  contract.wp_bind program next post _ workspace committed

theorem Contract.Yields.mono {program : Program Row Failure α}
    {post post' : α → Workspace Row → Committed Row Result → Prop}
    (yields : contract.Yields program post workspace committed)
    (finished : ∀ result workspace committed,
      post result workspace committed → post' result workspace committed) :
    contract.Yields program post' workspace committed :=
  Contract.Wp.mono yields finished fun _ _ _ _ => trivial

@[simp] theorem Contract.yields_pure {result : α}
    {post : α → Workspace Row → Committed Row Result → Prop} :
    contract.Yields (pure result : Program Row Failure α) post workspace
      committed ↔ post result workspace committed :=
  Iff.rfl

@[simp] theorem Contract.yields_fail {failure : Failure}
    {post : α → Workspace Row → Committed Row Result → Prop} :
    contract.Yields (.fail failure : Program Row Failure α) post workspace
      committed :=
  trivial

theorem Contract.yields_timestamp
    {post : Int → Workspace Row → Committed Row Result → Prop} :
    contract.Yields (.timestamp : Program Row Failure Int) post workspace
      committed ↔ ∀ reading, post reading workspace committed :=
  Iff.rfl

theorem Contract.yields_unlessRefused {failure : Failure}
    {post : Unit → Workspace Row → Committed Row Result → Prop}
    (holds : post () workspace committed) :
    contract.Yields (.unlessRefused failure : Program Row Failure Unit) post
      workspace committed := by
  intro refused
  cases refused with
  | true => trivial
  | false => exact holds

theorem Contract.yields_select
    {post : Store Row → Workspace Row → Committed Row Result → Prop} :
    contract.Yields (.select : Program Row Failure (Store Row)) post workspace
      committed ↔
      contract.Stable workspace.locks committed
        (post (overlay workspace.writes committed.rows) workspace) :=
  Iff.rfl

theorem Contract.yields_selectKeys {wanted : Store Row → Key → Bool}
    {post : Store Row × List Key → Workspace Row → Committed Row Result → Prop} :
    contract.Yields (.selectKeys wanted : Program Row Failure _) post workspace
      committed ↔
      ∀ keys : List Key, keys.Nodup →
        (∀ key, key ∈ keys ↔
          wanted (overlay workspace.writes committed.rows) key = true) →
        contract.Stable workspace.locks committed
          (post (overlay workspace.writes committed.rows, keys) workspace) :=
  Iff.rfl

theorem Contract.yields_selectForUpdate {key : Key}
    {post : Option (Row key) → Workspace Row → Committed Row Result → Prop} :
    contract.Yields (.selectForUpdate key : Program Row Failure _) post workspace
      committed ↔
      let row := overlay workspace.writes committed.rows key
      contract.Stable (workspace.lockRow key row).locks committed
        (post row (workspace.lockRow key row)) :=
  Iff.rfl

theorem Contract.yields_skipLocked {key : Key}
    {post : Bool → Workspace Row → Committed Row Result → Prop} :
    contract.Yields (.skipLocked key : Program Row Failure Bool) post workspace
      committed ↔
      contract.Stable workspace.locks committed (post false workspace) ∧
      contract.Stable (insert key workspace.locks) committed
        (post true { workspace with locks := insert key workspace.locks }) :=
  Iff.rfl

theorem Contract.yields_write {key : Key}
    {change : Option (Row key) → Change (Row key)}
    {post : Change (Row key) → Workspace Row → Committed Row Result → Prop} :
    contract.Yields (.write key change : Program Row Failure _) post workspace
      committed ↔
      let made := change (overlay workspace.writes committed.rows key)
      contract.Stable (workspace.record key made).locks committed
        (post made (workspace.record key made)) :=
  Iff.rfl

end Statements

/-- Committing a finished program has an effect the contract allows. -/
def Contract.Commits (contract : Contract Row Result) (result : Result)
    (workspace : Workspace Row) (committed : Committed Row Result) : Prop :=
  contract.Effect committed result (overlay workspace.writes committed.rows)

/-- A program that keeps the contract from its begin to its commit. -/
def Contract.Certifies (contract : Contract Row Result)
    (program : Program Row Failure Result) : Prop :=
  ∀ committed, contract.Invariant committed →
    contract.Yields program contract.Commits .fresh committed

end Preconditions

end MeridianPostgreSQL.ReadCommitted
