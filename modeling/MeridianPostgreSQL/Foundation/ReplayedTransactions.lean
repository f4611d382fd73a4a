import MeridianPostgreSQL.Foundation.RowStatements

/-! # Transactions that replay

What a transaction has done replays over any store that agrees with the
committed one on the locked rows. So it replays at its commit. -/

namespace MeridianPostgreSQL.ReadCommitted

variable {Key : Type} {Row : Key → Type} {Command Failure : Type}

/-- Each commit replays the statements of its transaction. -/
def replayContract (meaning : Command → RowStatement Row) (allowed : Command → Prop) :
    Contract Row (List (Executed Command Row)) where
  Invariant := fun _ => True
  Effect := fun committed log after => Replays meaning log committed.rows after ∧
    ∀ executed ∈ log, allowed executed.command
  preserved := fun _ _ => trivial

/-- The stores that a transaction may find at its commit. -/
def Workspace.Fits (workspace : Workspace Row) (rows store : Store Row) : Prop :=
  ∀ key ∈ workspace.locks, store key = rows key

/-! ## Workspaces -/

theorem Workspace.lockRow_subset (workspace : Workspace Row) (key : Key)
    (row : Option (Row key)) : workspace.locks ⊆ (workspace.lockRow key row).locks := by
  cases row with
  | none => exact subset_rfl
  | some row => exact Set.subset_insert key workspace.locks

section Records

variable [DecidableEq Key]

theorem Workspace.record_subset (workspace : Workspace Row) (key : Key)
    (change : Change (Row key)) : workspace.locks ⊆ (workspace.record key change).locks := by
  cases change with
  | keep => exact subset_rfl
  | put | delete => exact Set.subset_insert key workspace.locks

theorem Workspace.record_locks {key : Key} {change : Change (Row key)}
    (touches : change.keeps = false) (workspace : Workspace Row) :
    key ∈ (workspace.record key change).locks := by
  cases change with
  | keep => cases touches
  | put | delete => exact Set.mem_insert key workspace.locks

theorem Workspace.overlay_record (workspace : Workspace Row) (key : Key)
    (change : Change (Row key)) (store : Store Row) :
    overlay (workspace.record key change).writes store =
      Function.update (overlay workspace.writes store) key
        (change.outcome (overlay workspace.writes store key)) := by
  funext other
  by_cases same : other = key
  · subst other
    cases change <;> simp [Workspace.record, Change.outcome, overlay]
  · rw [Function.update_of_ne same]
    cases change <;> simp [Workspace.record, overlay, Function.update_of_ne same]

end Records

/-! ## One statement -/

/-- What has happened since `start`: locks are only added, and the rows under
them stayed. -/
structure Held (start workspace : Workspace Row) (before after : Store Row) : Prop where
  locks : start.locks ⊆ workspace.locks
  kept : ∀ key ∈ start.locks, after key = before key

theorem Held.fits {start workspace : Workspace Row} {before after store : Store Row}
    (held : Held start workspace before after) (fits : workspace.Fits after store) :
    start.Fits before store :=
  fun key locked => (fits key (held.locks locked)).trans (held.kept key locked)

theorem Held.trans {start middle workspace : Workspace Row} {before between after : Store Row}
    (first : Held start middle before between) (second : Held middle workspace between after) :
    Held start workspace before after where
  locks := first.locks.trans second.locks
  kept := fun key locked =>
    (second.kept key (first.locks locked)).trans (first.kept key locked)

theorem Held.refl (workspace : Workspace Row) (rows : Store Row) :
    Held workspace workspace rows rows where
  locks := subset_rfl
  kept := fun _ _ => rfl

theorem Held.interfered {contract : Contract Row (List (Executed Command Row))}
    {start workspace : Workspace Row}
    {committed later : Committed Row (List (Executed Command Row))} {locks : Set Key}
    (locked : locks = workspace.locks) (subset : start.locks ⊆ locks)
    (interferes : contract.Interferes locks committed later) :
    Held start workspace committed.rows later.rows where
  locks := locked ▸ subset
  kept := fun _ member => interferes.row_eq (subset member)

/-- The rows that a statement has locked. -/
structure LockedRows (keys wanted : List Key) (limit : Nat) (start workspace : Workspace Row)
    (before after : Store Row) : Prop where
  sublist : keys.Sublist wanted
  bounded : keys.length ≤ limit
  unwritten : workspace.writes = start.writes
  held : Held start workspace before after

/-- The rows that a statement has changed, and what that does to a store. -/
structure ChangedRows (statement : RowStatement Row) (touched : List (Touch Row))
    (keys : List Key) (start workspace : Workspace Row) (before after : Store Row) : Prop where
  listed : (touched.map Touch.key).Sublist keys
  held : Held start workspace before after
  alters : ∀ store, workspace.Fits after store →
    Alters statement touched (overlay start.writes store) (overlay workspace.writes store)

/-- What a statement has done, and what that does to a store. -/
structure Executes (statement : RowStatement Row) (touched : List (Touch Row))
    (start workspace : Workspace Row) (before after : Store Row) : Prop where
  held : Held start workspace before after
  performs : ∀ store, workspace.Fits after store →
    Performs statement touched (overlay start.writes store) (overlay workspace.writes store)

theorem ChangedRows.executes {statement : RowStatement Row} {keys : List Key} {touched : List (Touch Row)}
    {start workspace : Workspace Row} {before after : Store Row}
    (changed : ChangedRows statement touched keys start workspace before after)
    (distinct : keys.Nodup) (bounded : ∀ limit, statement.limit = some limit → keys.length ≤ limit)
    (found : ∀ key ∈ keys, ∃ store, statement.finds store key = true) :
    Executes statement touched start workspace before after where
  held := changed.held
  performs := by
    intro store fits
    refine ⟨changed.alters store fits, distinct.sublist changed.listed, ?_, ?_⟩
    · intro limit limited
      have shorter := changed.listed.length_le
      rw [List.length_map] at shorter
      exact shorter.trans (bounded limit limited)
    · intro touch member
      exact found _ (changed.listed.subset (List.mem_map_of_mem member))

/-- What a transaction has done replays. -/
def Ready (meaning : Command → RowStatement Row) (allowed : Command → Prop)
    (done : List (Executed Command Row)) (workspace : Workspace Row) (rows : Store Row) : Prop :=
  (∀ executed ∈ done, allowed executed.command) ∧
    ∀ store, workspace.Fits rows store →
      Replays meaning done store (overlay workspace.writes store)

theorem Ready.executed {meaning : Command → RowStatement Row} {allowed : Command → Prop}
    {done : List (Executed Command Row)} {command : Command}
    {touched : List (Touch Row)} {workspace final : Workspace Row} {before after : Store Row}
    (ready : Ready meaning allowed done workspace before) (permitted : allowed command)
    (executes : Executes (meaning command) touched workspace final before after) :
    Ready meaning allowed (done ++ [⟨command, touched⟩]) final after := by
  refine ⟨?_, ?_⟩
  · intro executed member
    rcases List.mem_append.mp member with old | new
    · exact ready.1 executed old
    · rw [List.mem_singleton.mp new]
      exact permitted
  · intro store fits
    exact (ready.2 store (executes.held.fits fits)).append
      (.cons (executes.performs store fits) .nil)

section Certified

variable [DecidableEq Key] {meaning : Command → RowStatement Row} {allowed : Command → Prop}
  {statement : RowStatement Row} {refused : Failure} {workspace : Workspace Row}
  {committed later : Committed Row (List (Executed Command Row))}

theorem yields_lockRows (keys : List Key) (limit : Nat) :
    (replayContract meaning allowed).Yields
      (statement.lockRows keys limit : Program Row Failure (List Key))
      (fun taken final after => LockedRows taken keys limit workspace final committed.rows
        after.rows) workspace committed := by
  induction keys generalizing limit workspace committed with
  | nil =>
      unfold RowStatement.lockRows
      exact ⟨.refl [], Nat.zero_le _, rfl, .refl workspace committed.rows⟩
  | cons key rest induction =>
      cases limit with
      | zero =>
          unfold RowStatement.lockRows
          exact ⟨List.nil_sublist _, le_rfl, rfl, .refl workspace committed.rows⟩
      | succ limit =>
          have wider := Set.subset_insert key workspace.locks
          unfold RowStatement.lockRows
          rw [Contract.yields_bind]
          refine Contract.yields_skipLocked.mpr ⟨?_, ?_⟩
          · intro later interferes _
            refine (induction (limit + 1)).mono ?_
            intro taken final after locked
            exact ⟨locked.sublist.cons key, locked.bounded, locked.unwritten,
              (Held.interfered rfl subset_rfl interferes).trans locked.held⟩
          · intro later interferes _
            rw [if_pos rfl, Contract.yields_bind, Contract.yields_selectForUpdate]
            dsimp only
            generalize overlay workspace.writes later.rows key = row
            intro last further _
            have untilLocked : Held workspace
                { workspace with locks := insert key workspace.locks }
                committed.rows later.rows := .interfered rfl wider interferes
            have untilRead : Held workspace
                (({ workspace with locks := insert key workspace.locks } :
                  Workspace Row).lockRow key row) committed.rows last.rows :=
              untilLocked.trans (.interfered rfl (Workspace.lockRow_subset _ key row) further)
            split
            · refine (induction (limit + 1)).mono ?_
              intro taken final after locked
              exact ⟨locked.sublist.cons key, locked.bounded,
                locked.unwritten.trans (Workspace.lockRow_writes _ key row),
                untilRead.trans locked.held⟩
            · rw [Contract.yields_bind]
              refine (induction limit).mono ?_
              intro taken final after locked
              exact ⟨locked.sublist.cons_cons key, Nat.succ_le_succ locked.bounded,
                locked.unwritten.trans (Workspace.lockRow_writes _ key row),
                untilRead.trans locked.held⟩

/-- A changed row is locked, so it is found as it was. -/
theorem ChangedRows.touch {key : Key} {change : Change (Row key)} {keys : List Key}
    {touched : List (Touch Row)} {start workspace : Workspace Row}
    {before middle after : Store Row}
    (made : statement.change key (overlay start.writes before key) = change)
    (touches : change.keeps = false) (fresh : key ∉ keys)
    (held : Held start (start.record key change) before middle)
    (same : middle key = before key)
    (changed : ChangedRows statement touched keys (start.record key change) workspace middle
      after) :
    ChangedRows statement (⟨key, change⟩ :: touched) (key :: keys) start workspace before
      after where
  listed := changed.listed.cons_cons key
  held := held.trans changed.held
  alters := by
    intro store fits
    have alters := changed.alters store fits
    have found : store key = before key :=
      (changed.held.fits fits key (Workspace.record_locks touches start)).trans same
    have seen : overlay start.writes store key = overlay start.writes before key := by
      rw [overlay, overlay, found]
    have apart : ∀ touch ∈ touched, touch.key ≠ key := by
      intro touch member equal
      exact fresh (equal ▸ changed.listed.subset (List.mem_map_of_mem member))
    have recorded := start.overlay_record key change store
    refine ⟨?_, ?_, ?_⟩
    · intro touch member
      rcases List.mem_cons.mp member with rfl | member
      · exact ⟨by rw [seen, made], touches⟩
      · have still := (alters.made touch member).1
        rw [recorded, Function.update_of_ne (apart touch member)] at still
        exact ⟨still, (alters.made touch member).2⟩
    · intro touch member
      rcases List.mem_cons.mp member with rfl | member
      · have absent : key ∉ touched.map Touch.key := by
          intro listed
          rcases List.mem_map.mp listed with ⟨touch, member, equal⟩
          exact apart touch member equal
        rw [alters.others key absent, recorded, Function.update_self]
      · have still := alters.written touch member
        rw [recorded, Function.update_of_ne (apart touch member)] at still
        exact still
    · intro other absent
      rw [List.map_cons, List.mem_cons, not_or] at absent
      rw [alters.others other absent.2, recorded, Function.update_of_ne absent.1]

theorem yields_changeRows (keys : List Key) (distinct : keys.Nodup) :
    (replayContract meaning allowed).Yields
      (statement.changeRows refused keys)
      (fun touched final after => ChangedRows statement touched keys workspace final
        committed.rows after.rows) workspace committed := by
  induction keys generalizing workspace committed with
  | nil =>
      unfold RowStatement.changeRows
      exact ⟨.refl [], .refl workspace committed.rows, fun store _ =>
        ⟨List.forall_mem_nil _, List.forall_mem_nil _, fun _ _ => rfl⟩⟩
  | cons key rest induction =>
      rcases List.nodup_cons.mp distinct with ⟨fresh, distinct⟩
      unfold RowStatement.changeRows
      rw [Contract.yields_bind]
      refine Contract.yields_write.mpr ?_
      dsimp only
      generalize made : statement.change key _ = change
      intro later interferes _
      have held : Held workspace (workspace.record key change) committed.rows later.rows :=
        .interfered rfl (workspace.record_subset key change) interferes
      split
      · rename_i keeps
        split
        · exact Contract.yields_fail
        · refine (induction distinct).mono ?_
          intro touched final after changed
          cases change with
          | keep =>
              exact ⟨changed.listed.cons key, held.trans changed.held, changed.alters⟩
          | put | delete => cases keeps
      · rename_i touches
        rw [Bool.not_eq_true] at touches
        rw [Contract.yields_bind]
        refine (induction distinct).mono ?_
        intro touched final after changed
        exact changed.touch made touches fresh held
          (interferes.row_eq (Workspace.record_locks touches workspace))

theorem yields_statement :
    (replayContract meaning allowed).Yields (statement.program refused)
      (fun touched final after => Executes statement touched workspace final committed.rows
        after.rows) workspace committed := by
  unfold RowStatement.program
  rw [Contract.yields_bind]
  refine Contract.yields_selectKeys.mpr fun keys distinct complete => ?_
  intro later interferes _
  have held : Held workspace workspace committed.rows later.rows :=
    .interfered rfl subset_rfl interferes
  have found : ∀ key ∈ keys, ∃ store, statement.finds store key = true :=
    fun key listed => ⟨_, (complete key).mp listed⟩
  dsimp only
  split
  · rename_i unlimited
    refine (yields_changeRows keys distinct).mono ?_
    intro touched final after changed
    have executes := changed.executes distinct (by simp [unlimited]) found
    exact ⟨held.trans executes.held, executes.performs⟩
  · rename_i limit limited
    rw [Contract.yields_bind]
    refine (yields_lockRows keys limit).mono ?_
    intro taken final after locked
    refine (yields_changeRows taken (distinct.sublist locked.sublist)).mono ?_
    intro touched last ended changed
    have executes := changed.executes (distinct.sublist locked.sublist)
      (fun other same => by rw [limited] at same; cases same; exact locked.bounded)
      fun key listed => found key (locked.sublist.subset listed)
    refine ⟨(held.trans locked.held).trans executes.held, ?_⟩
    intro store fits
    rw [← locked.unwritten]
    exact executes.performs store fits

/-! ## Transactions -/

theorem yields_client (client : Client Command Row) (sends : client.Sends allowed)
    {done : List (Executed Command Row)}
    (ready : Ready meaning allowed done workspace committed.rows) :
    (replayContract meaning allowed).Yields (client.program meaning refused)
      (fun rest final after => Ready meaning allowed (done ++ rest) final after.rows)
      workspace committed := by
  induction client generalizing done workspace committed with
  | commit =>
      unfold Client.program
      rw [Contract.yields_pure, List.append_nil]
      exact ready
  | send command next induction =>
      unfold Client.program
      rw [Contract.yields_bind]
      refine yields_statement.mono ?_
      intro touched middle between executes
      rw [Contract.yields_bind]
      refine (induction touched (sends.2 touched) (ready.executed sends.1 executes)).mono ?_
      intro rest final after ready
      rw [Contract.yields_pure]
      simpa using ready

/-- The transactions of clients that send allowed statements. -/
def ClientTransaction (meaning : Command → RowStatement Row) (refused : Failure)
    (allowed : Command → Prop)
    (program : Program Row Failure (List (Executed Command Row))) : Prop :=
  ∃ client : Client Command Row, client.Sends allowed ∧ program = client.program meaning refused

theorem ClientTransaction.certified
    {program : Program Row Failure (List (Executed Command Row))}
    (transaction : ClientTransaction meaning refused allowed program) :
    (replayContract meaning allowed).Certifies program := by
  rcases transaction with ⟨client, sends, rfl⟩
  intro committed _
  have fresh : Ready meaning allowed [] (Workspace.fresh : Workspace Row) committed.rows :=
    ⟨List.forall_mem_nil _, fun _ _ => .nil⟩
  refine (yields_client client sends fresh).mono ?_
  intro log final after ready
  exact ⟨ready.2 after.rows fun _ _ => rfl, ready.1⟩

/-- In every interleaving the committed rows replay from the first ones. -/
theorem reachable_replays {rows : Store Row}
    {server : Server Row Failure (List (Executed Command Row))}
    (reachable : Reachable (ClientTransaction meaning refused allowed) rows server) :
    Replays meaning server.committed.log.flatten rows server.committed.rows ∧
      ∀ executed ∈ server.committed.log.flatten, allowed executed.command := by
  apply (replayContract meaning allowed).reachable_induction
    (fun committed => Replays meaning committed.log.flatten rows committed.rows ∧
      ∀ executed ∈ committed.log.flatten, allowed executed.command)
    (fun _ transaction => transaction.certified) trivial ⟨.nil, List.forall_mem_nil _⟩ _ reachable
  rintro committed log after _ ⟨replays, listed⟩ ⟨effect, permitted⟩
  simp only [Committed.extend, List.flatten_append, List.flatten_singleton]
  exact ⟨replays.append effect, fun executed member =>
    (List.mem_append.mp member).elim (listed executed) (permitted executed)⟩

end Certified

end MeridianPostgreSQL.ReadCommitted
