import MeridianPostgreSQL.Foundation.TransactionContracts

/-! # Savepoints and caught failures

A body whose savepoints are nested may run under one more: its failure then
leaves the writes and locks of the transaction as they were. -/

namespace MeridianPostgreSQL.ReadCommitted

variable {Key : Type} {Row : Key → Type} {Failure Result α β : Type}

/-! ## Plain programs -/

/-- The program sends no savepoint statement. -/
def Program.Plain : Program Row Failure α → Prop
  | .finish _ => True
  | .fail _ => True
  | .clock next => ∀ reading, (next reading).Plain
  | .refuse next => ∀ refused, (next refused).Plain
  | .read next => ∀ store, (next store).Plain
  | .scan _ next => ∀ store keys, (next store keys).Plain
  | .lock _ next => ∀ row, (next row).Plain
  | .lockSkipLocked _ next => ∀ locked, (next locked).Plain
  | .modify _ _ next => ∀ made, (next made).Plain
  | .savepoint _ => False
  | .rollbackTo _ => False
  | .release _ => False

theorem Program.Plain.handle {program : Program Row Failure α}
    {finished : α → Program Row Failure β}
    {failed : Failure → Program Row Failure β} (plain : program.Plain)
    (afterResult : ∀ result, (finished result).Plain)
    (afterFailure : ∀ failure, (failed failure).Plain) :
    (program.handle finished failed).Plain := by
  induction program with
  | finish result => exact afterResult result
  | fail failure => exact afterFailure failure
  | clock next induction => exact fun reading => induction reading (plain reading)
  | refuse next induction => exact fun refused => induction refused (plain refused)
  | read next induction => exact fun store => induction store (plain store)
  | scan wanted next induction =>
      exact fun store keys => induction store keys (plain store keys)
  | lock key next induction => exact fun row => induction row (plain row)
  | lockSkipLocked key next induction =>
      exact fun locked => induction locked (plain locked)
  | modify key change next induction => exact fun made => induction made (plain made)
  | savepoint | rollbackTo | release => exact plain.elim

theorem Program.Plain.bind {program : Program Row Failure α}
    {next : α → Program Row Failure β} (plain : program.Plain)
    (after : ∀ result, (next result).Plain) : (program >>= next).Plain :=
  Program.Plain.handle plain after fun _ => trivial

namespace Program

theorem plain_pure (result : α) : (pure result : Program Row Failure α).Plain := trivial

theorem plain_fail (failure : Failure) :
    (.fail failure : Program Row Failure α).Plain := trivial

theorem plain_timestamp : (timestamp : Program Row Failure Int).Plain :=
  fun _ => trivial

theorem plain_unlessRefused (failure : Failure) :
    (unlessRefused failure : Program Row Failure Unit).Plain := by
  intro refused
  cases refused <;> trivial

theorem plain_select : (select : Program Row Failure (Store Row)).Plain :=
  fun _ => trivial

theorem plain_selectForUpdate (key : Key) :
    (selectForUpdate key : Program Row Failure _).Plain :=
  fun _ => trivial

theorem plain_write (key : Key) (change : Option (Row key) → Change (Row key)) :
    (write key change : Program Row Failure _).Plain :=
  fun _ => trivial

end Program

/-! ## What a plain program leaves in place -/

/-- A later point of a transaction that kept its savepoints and locks. -/
structure Contract.Framed (contract : Contract Row Result)
    (start : Workspace Row) (before : Committed Row Result)
    (workspace : Workspace Row) (after : Committed Row Result) : Prop where
  saved : workspace.saved = start.saved
  locks : start.locks ⊆ workspace.locks
  interferes : contract.Interferes start.locks before after

namespace Contract.Framed

variable {contract : Contract Row Result} {first second third : Workspace Row}
  {before middle after : Committed Row Result}

theorem refl (workspace : Workspace Row) (committed : Committed Row Result) :
    contract.Framed workspace committed workspace committed where
  saved := rfl
  locks := subset_rfl
  interferes := .refl committed

theorem trans (left : contract.Framed first before second middle)
    (right : contract.Framed second middle third after) :
    contract.Framed first before third after where
  saved := right.saved.trans left.saved
  locks := left.locks.trans right.locks
  interferes := left.interferes.trans (right.interferes.mono left.locks)

/-- One statement that keeps the savepoints and adds locks. -/
theorem step (saved : second.saved = first.saved) (locks : first.locks ⊆ second.locks)
    (interferes : contract.Interferes second.locks before after) :
    contract.Framed first before second after where
  saved := saved
  locks := locks
  interferes := interferes.mono locks

end Contract.Framed

theorem Workspace.locks_subset_lockRow (workspace : Workspace Row) (key : Key)
    (row : Option (Row key)) :
    workspace.locks ⊆ (workspace.lockRow key row).locks := by
  cases row with
  | none => exact subset_rfl
  | some row => exact Set.subset_insert key workspace.locks

theorem Workspace.lockRow_saved (workspace : Workspace Row) (key : Key)
    (row : Option (Row key)) :
    (workspace.lockRow key row).saved = workspace.saved := by
  cases row <;> rfl

variable [DecidableEq Key]

theorem Workspace.locks_subset_record (workspace : Workspace Row) (key : Key)
    (change : Change (Row key)) :
    workspace.locks ⊆ (workspace.record key change).locks := by
  cases change with
  | keep => exact subset_rfl
  | put row => exact Set.subset_insert key workspace.locks
  | delete => exact Set.subset_insert key workspace.locks

theorem Workspace.record_saved (workspace : Workspace Row) (key : Key)
    (change : Change (Row key)) :
    (workspace.record key change).saved = workspace.saved := by
  cases change <;> rfl

section Frame

variable {contract : Contract Row Result} {program : Program Row Failure α}
  {post : α → Workspace Row → Committed Row Result → Prop}
  {failed : Failure → Workspace Row → Committed Row Result → Prop}
  {start workspace : Workspace Row} {before committed : Committed Row Result}

/-- What is framed from here is framed from any point that led here. -/
theorem Contract.Framed.prepend
    (frame : contract.Framed start before workspace committed)
    (holds : contract.Wp program
      (fun result after later => post result after later ∧
        contract.Framed workspace committed after later)
      (fun failure after later => failed failure after later ∧
        contract.Framed workspace committed after later)
      workspace committed) :
    contract.Wp program
      (fun result after later => post result after later ∧
        contract.Framed start before after later)
      (fun failure after later => failed failure after later ∧
        contract.Framed start before after later)
      workspace committed :=
  holds.mono (fun _ _ _ both => ⟨both.1, frame.trans both.2⟩)
    (fun _ _ _ both => ⟨both.1, frame.trans both.2⟩)

/-- A plain program ends with its savepoints and locks in place. -/
theorem Contract.Wp.framed (plain : program.Plain)
    (holds : contract.Wp program post failed workspace committed) :
    contract.Wp program
      (fun result after later => post result after later ∧
        contract.Framed workspace committed after later)
      (fun failure after later => failed failure after later ∧
        contract.Framed workspace committed after later)
      workspace committed := by
  induction program generalizing workspace committed with
  | finish result => exact ⟨holds, .refl workspace committed⟩
  | fail failure => exact ⟨holds, .refl workspace committed⟩
  | clock next induction =>
      exact fun reading => induction reading (plain reading) (holds reading)
  | refuse next induction =>
      exact fun refused => induction refused (plain refused) (holds refused)
  | read next induction =>
      intro later interferes invariant
      exact Contract.Framed.prepend (.step rfl subset_rfl interferes)
        (induction _ (plain _) (holds later interferes invariant))
  | scan wanted next induction =>
      intro keys nodup complete later interferes invariant
      exact Contract.Framed.prepend (.step rfl subset_rfl interferes)
        (induction _ _ (plain _ _) (holds keys nodup complete later interferes invariant))
  | lock key next induction =>
      intro later interferes invariant
      exact Contract.Framed.prepend
        (.step (workspace.lockRow_saved key _) (workspace.locks_subset_lockRow key _)
          interferes)
        (induction _ (plain _) (holds later interferes invariant))
  | lockSkipLocked key next induction =>
      refine ⟨fun later interferes invariant => ?_, fun later interferes invariant => ?_⟩
      · exact Contract.Framed.prepend (.step rfl subset_rfl interferes)
          (induction _ (plain _) (holds.1 later interferes invariant))
      · exact Contract.Framed.prepend
          (.step rfl (Set.subset_insert key workspace.locks) interferes)
          (induction _ (plain _) (holds.2 later interferes invariant))
  | modify key change next induction =>
      intro later interferes invariant
      exact Contract.Framed.prepend
        (.step (workspace.record_saved key _) (workspace.locks_subset_record key _)
          interferes)
        (induction _ (plain _) (holds later interferes invariant))
  | savepoint | rollbackTo | release => exact plain.elim

end Frame

/-! ## Balanced programs -/

/-- The program ends with the savepoints and locks it began with in place,
whatever other transactions do. -/
def Program.Balanced (program : Program Row Failure α) : Prop :=
  ∀ ⦃Result : Type⦄ ⦃contract : Contract Row Result⦄
    ⦃post : α → Workspace Row → Committed Row Result → Prop⦄
    ⦃failed : Failure → Workspace Row → Committed Row Result → Prop⦄
    ⦃workspace : Workspace Row⦄ ⦃committed : Committed Row Result⦄,
    contract.Wp program post failed workspace committed →
    contract.Wp program
      (fun result after later => post result after later ∧
        contract.Framed workspace committed after later)
      (fun failure after later => failed failure after later ∧
        contract.Framed workspace committed after later)
      workspace committed

namespace Program

theorem Plain.balanced {program : Program Row Failure α} (plain : program.Plain) :
    program.Balanced :=
  fun _ _ _ _ _ _ holds => Contract.Wp.framed plain holds

theorem Balanced.handle {program : Program Row Failure α}
    {finished : α → Program Row Failure β} {fallen : Failure → Program Row Failure β}
    (balanced : program.Balanced) (afterResult : ∀ result, (finished result).Balanced)
    (afterFailure : ∀ failure, (fallen failure).Balanced) :
    (program.handle finished fallen).Balanced := by
  intro Result contract post failed workspace committed holds
  apply (contract.wp_handle program finished fallen _ _ _ _).mpr
  apply (balanced ((contract.wp_handle program finished fallen _ _ _ _).mp holds)).mono
  · exact fun result after later both => both.2.prepend (afterResult result both.1)
  · exact fun failure after later both => both.2.prepend (afterFailure failure both.1)

theorem Balanced.bind {program : Program Row Failure α}
    {next : α → Program Row Failure β} (balanced : program.Balanced)
    (after : ∀ result, (next result).Balanced) : (program >>= next).Balanced :=
  Balanced.handle balanced after fun _ => Plain.balanced trivial

theorem Balanced.attempt {body : Program Row Failure α} (balanced : body.Balanced) :
    (attempt body).Balanced :=
  Balanced.handle balanced (fun _ => Plain.balanced trivial)
    fun _ => Plain.balanced trivial

/-- A savepoint around a balanced body is released or rolled back to. -/
theorem Balanced.transaction {body : Program Row Failure α} (balanced : body.Balanced) :
    (transaction body).Balanced := by
  intro Result contract post failed workspace committed holds
  apply (contract.wp_handle body _ _ _ _ _ committed).mpr
  apply (balanced ((contract.wp_handle body _ _ _ _ _ committed).mp holds)).mono
  · intro result after later both
    rcases both with ⟨met, frame⟩
    simp only [Contract.Wp, frame.saved] at met ⊢
    exact ⟨met, rfl, frame.locks, frame.interferes⟩
  · intro failure after later both
    rcases both with ⟨met, frame⟩
    simp only [Contract.Wp, frame.saved] at met ⊢
    intro final interferes invariant
    exact ⟨met final interferes invariant, rfl, subset_rfl,
      frame.interferes.trans interferes⟩

end Program

/-! ## Rules -/

section Rules

variable {contract : Contract Row Result} {body : Program Row Failure α}
  {workspace : Workspace Row} {committed : Committed Row Result}

/-- A failure under a savepoint leaves the transaction as it was. -/
theorem Contract.wp_transaction
    {post : α → Workspace Row → Committed Row Result → Prop}
    {failed : Failure → Workspace Row → Committed Row Result → Prop}
    (reason : Failure → Committed Row Result → Prop) (balanced : body.Balanced)
    (holds : contract.Wp body
      (fun result after later =>
        post result { after with saved := workspace.saved } later)
      (fun failure _ later => reason failure later)
      { workspace with
        saved := (workspace.writes, workspace.locks) :: workspace.saved }
      committed)
    (undone : ∀ failure middle later,
      contract.Interferes workspace.locks committed middle → reason failure middle →
      contract.Interferes workspace.locks middle later →
      contract.Invariant later → failed failure workspace later) :
    contract.Wp (Program.transaction body) post failed workspace committed := by
  apply (contract.wp_handle body _ _ post failed _ committed).mpr
  apply (balanced holds).mono
  · intro result after later both
    simp only [Contract.Wp, both.2.saved]
    exact both.1
  · intro failure after later both
    simp only [Contract.Wp, both.2.saved]
    intro final interferes invariant
    exact undone failure later final both.2.interferes both.1 interferes invariant

/-- A caught failure is a result. -/
theorem Contract.wp_attempt
    {post : Except Failure α → Workspace Row → Committed Row Result → Prop}
    {failed : Failure → Workspace Row → Committed Row Result → Prop} :
    contract.Wp (Program.attempt body) post failed workspace committed ↔
      contract.Wp body (fun result => post (.ok result))
        (fun failure => post (.error failure)) workspace committed :=
  contract.wp_handle body _ _ post failed workspace committed

end Rules

end MeridianPostgreSQL.ReadCommitted
