import Mathlib.Data.List.Perm.Basic
import MeridianPostgreSQL.Foundation.Savepoints
import MeridianPostgreSQL.Foundation.TransactionSoundness
import MeridianPostgreSQL.Registry.History

/-! # Serial calls inside a transaction

The calls of an open transaction, ordered: those that read a committed row
before the transaction locked it, then those over the row it holds. Whatever
other transactions commit, the order stays one that runs serially. -/

namespace MeridianPostgreSQL.Registry

open ReadCommitted

variable {Document Report Version : Type} [LinearOrder Version]

abbrev RegistryServer (Document Report : Type) :=
  Server (fun _ : RegistryKey => RegistryRow) CallFailure
    (List (CallRecord Document Report))

abbrev RegistryCommitted (Document Report : Type) :=
  Committed (fun _ : RegistryKey => RegistryRow) (List (CallRecord Document Report))

/-- The calls on one tenant and scope. -/
def recordsOn (key : RegistryKey) (records : List (CallRecord Document Report)) :
    List (CallRecord Document Report) :=
  records.filter fun record => record.repository.key = key

omit [LinearOrder Version] in
theorem recordsOn_append (key : RegistryKey)
    (first second : List (CallRecord Document Report)) :
    recordsOn key (first ++ second) = recordsOn key first ++ recordsOn key second :=
  List.filter_append first second

/-! ## Rows that were committed -/

/-- The row was there at the start or was left by one of the calls. -/
def Visited (initial : RegistryStore) (records : List (CallRecord Document Report))
    (key : RegistryKey) (row : Option RegistryRow) : Prop :=
  row = initial key ∨
    ∃ record ∈ recordsOn key records, ∃ found, record.rows = some (found, row)

theorem Visited.append {initial : RegistryStore}
    {records more : List (CallRecord Document Report)} {key : RegistryKey}
    {row : Option RegistryRow} (visited : Visited initial records key row) :
    Visited initial (records ++ more) key row := by
  rcases visited with first | ⟨record, member, found⟩
  · exact .inl first
  · rw [Visited, recordsOn_append]
    exact .inr ⟨record, List.mem_append_left _ member, found⟩

variable {semantics : Semantics Document Report Version}

/-- The last row of serial calls is the first one or was left by a call. -/
theorem Serial.last {before after : Option RegistryRow}
    {order : List (CallRecord Document Report)}
    (serial : Serial semantics before order after) :
    after = before ∨ ∃ record ∈ order, ∃ found, record.rows = some (found, after) := by
  induction serial with
  | nil => exact .inl rfl
  | @cons before middle after record records answers rest induction =>
      rcases induction with same | ⟨other, member, found⟩
      · subst same
        cases answers with
        | unserved | refused => exact .inl rfl
        | served reading result _ rows => exact .inr ⟨record, by simp, before, rows⟩
      · exact .inr ⟨other, List.mem_cons_of_mem _ member, found⟩

/-- A call that leaves the row alone fits in wherever the row was the one it
found. -/
theorem Serial.insert {before after row : Option RegistryRow}
    {order : List (CallRecord Document Report)}
    (serial : Serial semantics before order after)
    (visited : row = before ∨ ∃ record ∈ order, ∃ found, record.rows = some (found, row))
    {reader : CallRecord Document Report} (answers : Answers semantics reader row row) :
    ∃ longer, longer.Perm (reader :: order) ∧ Serial semantics before longer after := by
  induction serial with
  | nil row =>
      rcases visited with rfl | ⟨record, absent, _⟩
      · exact ⟨[reader], .refl _, .cons answers (.nil _)⟩
      · exact nomatch absent
  | @cons before middle after record records first rest induction =>
      by_cases same : row = before
      · subst same
        exact ⟨reader :: record :: records, .refl _, .cons answers (.cons first rest)⟩
      · have later : row = middle ∨
            ∃ record ∈ records, ∃ found, record.rows = some (found, row) := by
          rcases visited with start | ⟨other, member, found, left⟩
          · exact absurd start same
          · rcases List.mem_cons.mp member with rfl | member
            · cases first with
              | unserved error unread => exact nomatch unread.symm.trans left
              | refused reading error rows =>
                  cases rows.symm.trans left
                  exact .inl rfl
              | served reading result _ rows =>
                  cases rows.symm.trans left
                  exact .inl rfl
            · exact .inr ⟨other, member, found, left⟩
        rcases induction later with ⟨longer, permuted, serial⟩
        refine ⟨record :: longer, ?_, .cons first serial⟩
        exact (permuted.cons record).trans (.swap reader record records)

/-- Any number of such calls fit in. -/
theorem Serial.insertAll {before after : Option RegistryRow}
    {order readers : List (CallRecord Document Report)}
    (serial : Serial semantics before order after)
    (visited : ∀ reader ∈ readers, ∃ row, Answers semantics reader row row ∧
      (row = before ∨ ∃ record ∈ order, ∃ found, record.rows = some (found, row))) :
    ∃ longer, longer.Perm (readers ++ order) ∧ Serial semantics before longer after := by
  induction readers with
  | nil => exact ⟨order, .refl _, serial⟩
  | cons reader readers induction =>
      rcases induction (fun other member => visited other (List.mem_cons_of_mem _ member))
        with ⟨longer, permuted, longerSerial⟩
      rcases visited reader (by simp) with ⟨row, answers, found⟩
      have still : row = before ∨
          ∃ record ∈ longer, ∃ found, record.rows = some (found, row) := by
        rcases found with start | ⟨record, member, left⟩
        · exact .inl start
        · exact .inr ⟨record, permuted.mem_iff.mpr (List.mem_append_right _ member), left⟩
      rcases longerSerial.insert still answers with ⟨last, grown, lastSerial⟩
      exact ⟨last, grown.trans (permuted.cons reader), lastSerial⟩

/-! ## The contract -/

/-- The calls of a transaction on one key: some that found rows committed
before, then the ones that ran over the row the transaction holds. -/
def Chained (semantics : Semantics Document Report Version) (initial : RegistryStore)
    (log : List (CallRecord Document Report)) (key : RegistryKey)
    (records : List (CallRecord Document Report)) (before after : Option RegistryRow)
    (locked : Prop) : Prop :=
  ∃ readers own, recordsOn key records = readers ++ own ∧
    (∀ reader ∈ readers, ∃ row, Answers semantics reader row row ∧
      Visited initial log key row) ∧
    Serial semantics before own after ∧ (¬ locked → own = [])

def registryContract (semantics : Semantics Document Report Version)
    (initial : RegistryStore) :
    Contract (fun _ : RegistryKey => RegistryRow) (List (CallRecord Document Report)) where
  Invariant := fun committed => ∀ key,
    Visited initial committed.log.flatten key (committed.rows key)
  Effect := fun committed records rows => ∀ key,
    Chained semantics initial committed.log.flatten key records (committed.rows key)
      (rows key) True
  preserved := by
    intro committed records rows holds effect key
    rcases effect key with ⟨readers, own, split, _, serial, _⟩
    rw [Committed.extend, List.flatten_append, List.flatten_singleton]
    rcases serial.last with same | ⟨record, member, found⟩
    · dsimp only
      rw [same]
      exact (holds key).append
    · refine .inr ⟨record, ?_, found⟩
      rw [recordsOn_append, split]
      exact List.mem_append_right _ (List.mem_append_right _ member)

section Contracts

variable {initial : RegistryStore} {locks : Set RegistryKey}
  {committed later : RegistryCommitted Document Report}

theorem visited_of_interferes
    (interferes : (registryContract semantics initial).Interferes locks committed later)
    (holds : (registryContract semantics initial).Invariant committed)
    {key : RegistryKey} {row : Option RegistryRow}
    (visited : Visited initial committed.log.flatten key row) :
    Visited initial later.log.flatten key row := by
  refine interferes.relates
    (fun before after => Visited initial before.log.flatten key row →
      Visited initial after.log.flatten key row) holds (fun _ => id)
    (fun first second => second ∘ first) ?_ visited
  intro committed records rows _ _ visited
  rw [Committed.extend, List.flatten_append]
  exact visited.append

theorem Answers.present {record : CallRecord Document Report}
    {before after : Option RegistryRow} (answers : Answers semantics record before after)
    (present : before ≠ none) : after ≠ none := by
  rcases answers.changes with ⟨_, rfl⟩ | ⟨_, _, _, _, rfl, _⟩
  · exact present
  · simp

theorem Serial.present {before after : Option RegistryRow}
    {order : List (CallRecord Document Report)}
    (serial : Serial semantics before order after) (present : before ≠ none) :
    after ≠ none := by
  induction serial with
  | nil => exact present
  | cons answers rest induction => exact induction (answers.present present)

/-- A committed row is never removed. -/
theorem present_of_interferes
    (interferes : (registryContract semantics initial).Interferes locks committed later)
    (holds : (registryContract semantics initial).Invariant committed)
    {key : RegistryKey} (present : committed.rows key ≠ none) :
    later.rows key ≠ none := by
  refine interferes.relates
    (fun before after => before.rows key ≠ none → after.rows key ≠ none) holds
    (fun _ => id) (fun first second => second ∘ first) ?_ present
  intro committed records rows _ effect present
  rcases effect key with ⟨_, _, _, _, serial, _⟩
  exact serial.present present

end Contracts

/-! ## Inside a transaction -/

section Transactions

variable {initial : RegistryStore} {records : List (CallRecord Document Report)}
  {workspace start : Workspace fun _ : RegistryKey => RegistryRow}
  {committed later : RegistryCommitted Document Report} {target : RegistryStore}

/-- The calls so far lead each row from its committed value to its target. -/
structure Tracks (semantics : Semantics Document Report Version)
    (initial : RegistryStore) (records : List (CallRecord Document Report))
    (workspace : Workspace fun _ : RegistryKey => RegistryRow)
    (committed : RegistryCommitted Document Report) (target : RegistryStore) : Prop where
  invariant : (registryContract semantics initial).Invariant committed
  chained : ∀ key, Chained semantics initial committed.log.flatten key records
    (committed.rows key) (target key) (key ∈ workspace.locks)
  clean : ∀ key, key ∉ workspace.locks → workspace.writes key = none

/-- Between two calls the target is what the transaction sees. -/
def Working (semantics : Semantics Document Report Version)
    (initial : RegistryStore) (records : List (CallRecord Document Report))
    (workspace : Workspace fun _ : RegistryKey => RegistryRow)
    (committed : RegistryCommitted Document Report) : Prop :=
  Tracks semantics initial records workspace committed
    (overlay workspace.writes committed.rows)

theorem Tracks.interfered (tracks : Tracks semantics initial records workspace committed target)
    (interferes : (registryContract semantics initial).Interferes workspace.locks
      committed later)
    (invariant : (registryContract semantics initial).Invariant later)
    {next : RegistryStore}
    (kept : ∀ key ∈ workspace.locks, next key = target key)
    (moved : ∀ key, key ∉ workspace.locks → next key = later.rows key) :
    Tracks semantics initial records workspace later next where
  invariant := invariant
  clean := tracks.clean
  chained := by
    intro key
    rcases tracks.chained key with ⟨readers, own, split, found, serial, unlocked⟩
    have visited : ∀ reader ∈ readers, ∃ row, Answers semantics reader row row ∧
        Visited initial later.log.flatten key row := by
      intro reader member
      rcases found reader member with ⟨row, answers, visited⟩
      exact ⟨row, answers, visited_of_interferes interferes tracks.invariant visited⟩
    refine ⟨readers, own, split, visited, ?_, unlocked⟩
    by_cases locked : key ∈ workspace.locks
    · rw [kept key locked, interferes.row_eq locked]
      exact serial
    · rw [unlocked locked, moved key locked]
      exact .nil _

theorem overlay_interfered
    (interferes : (registryContract semantics initial).Interferes workspace.locks
      committed later) {key : RegistryKey} (locked : key ∈ workspace.locks) :
    overlay workspace.writes later.rows key =
      overlay workspace.writes committed.rows key := by
  simp only [overlay, interferes.row_eq locked]

theorem Working.interfered (working : Working semantics initial records workspace committed)
    (interferes : (registryContract semantics initial).Interferes workspace.locks
      committed later)
    (invariant : (registryContract semantics initial).Invariant later) :
    Working semantics initial records workspace later := by
  apply Tracks.interfered working interferes invariant
  · exact fun key locked => overlay_interfered interferes locked
  · exact fun key unlocked => overlay_of_unwritten (working.clean key unlocked)

/-- Where a call that leaves the row alone may take its place: at the row the
transaction holds, or at a row that was committed. -/
def Placed (initial : RegistryStore)
    (workspace : Workspace fun _ : RegistryKey => RegistryRow)
    (committed : RegistryCommitted Document Report) (key : RegistryKey)
    (row : Option RegistryRow) : Prop :=
  (key ∈ workspace.locks → row = overlay workspace.writes committed.rows key) ∧
    (key ∉ workspace.locks → Visited initial committed.log.flatten key row)

theorem Working.placed (working : Working semantics initial records workspace committed)
    (key : RegistryKey) :
    Placed initial workspace committed key (overlay workspace.writes committed.rows key) := by
  refine ⟨fun _ => rfl, fun unlocked => ?_⟩
  rw [overlay_of_unwritten (working.clean key unlocked)]
  exact working.invariant key

theorem Placed.interfered {key : RegistryKey} {row : Option RegistryRow}
    (placed : Placed initial start committed key row)
    (holds : (registryContract semantics initial).Invariant committed)
    (interferes : (registryContract semantics initial).Interferes start.locks
      committed later) :
    Placed initial start later key row := by
  constructor
  · intro locked
    rw [placed.1 locked, overlay_interfered interferes locked]
  · exact fun unlocked =>
      visited_of_interferes interferes holds (placed.2 unlocked)

theorem Chained.other {log : List (CallRecord Document Report)} {key : RegistryKey}
    {before after : Option RegistryRow} {locked : Prop}
    (chained : Chained semantics initial log key records before after locked)
    {record : CallRecord Document Report} (different : record.repository.key ≠ key) :
    Chained semantics initial log key (records ++ [record]) before after locked := by
  have same : recordsOn key (records ++ [record]) = recordsOn key records := by
    simp [recordsOn, different]
  rcases chained with ⟨readers, own, split, rest⟩
  exact ⟨readers, own, same.trans split, rest⟩

theorem recordsOn_snoc {key : RegistryKey} {record : CallRecord Document Report}
    (same : record.repository.key = key) :
    recordsOn key (records ++ [record]) = recordsOn key records ++ [record] := by
  simp [recordsOn, same]

/-- A call that leaves the row alone joins the others. -/
theorem Working.observe (working : Working semantics initial records workspace committed)
    {record : CallRecord Document Report} {row : Option RegistryRow}
    (answers : Answers semantics record row row)
    (placed : Placed initial workspace committed record.repository.key row) :
    Working semantics initial (records ++ [record]) workspace committed where
  invariant := working.invariant
  clean := working.clean
  chained := by
    intro key
    by_cases same : record.repository.key = key
    · subst same
      rcases working.chained record.repository.key with
        ⟨readers, own, split, found, serial, unlocked⟩
      by_cases locked : record.repository.key ∈ workspace.locks
      · refine ⟨readers, own ++ [record], ?_, found, ?_, absurd locked⟩
        · rw [recordsOn_snoc rfl, split, List.append_assoc]
        · rw [← placed.1 locked] at serial ⊢
          exact serial.snoc answers
      · have empty := unlocked locked
        subst empty
        refine ⟨readers ++ [record], [], ?_, ?_, serial, fun _ => rfl⟩
        · rw [recordsOn_snoc rfl, split, List.append_nil, List.append_nil]
        · intro reader member
          rcases List.mem_append.mp member with old | new
          · exact found reader old
          · cases List.mem_singleton.mp new
            exact ⟨row, answers, placed.2 locked⟩
    · exact (working.chained key).other same

/-- The call has locked its row, which it found as `found`. -/
structure Locked (semantics : Semantics Document Report Version)
    (initial : RegistryStore) (records : List (CallRecord Document Report))
    (start : Workspace fun _ : RegistryKey => RegistryRow) (key : RegistryKey)
    (found : Option RegistryRow)
    (workspace : Workspace fun _ : RegistryKey => RegistryRow)
    (committed : RegistryCommitted Document Report) : Prop where
  tracks : Tracks semantics initial records workspace committed
    (Function.update (overlay workspace.writes committed.rows) key found)
  member : key ∈ workspace.locks
  kept : start.locks ⊆ workspace.locks
  placed : Placed initial start committed key found
  shown : overlay workspace.writes committed.rows key =
    some (found.getD (emptyRow semantics))

theorem Locked.interfered {key : RegistryKey} {found : Option RegistryRow}
    (locked : Locked semantics initial records start key found workspace committed)
    (interferes : (registryContract semantics initial).Interferes workspace.locks
      committed later)
    (invariant : (registryContract semantics initial).Invariant later) :
    Locked semantics initial records start key found workspace later where
  tracks := by
    apply locked.tracks.interfered interferes invariant
    · intro other member
      by_cases same : other = key
      · subst same
        simp
      · simp [Function.update_of_ne same, overlay_interfered interferes member]
    · intro other unlocked
      have different : other ≠ key := by
        intro same
        exact unlocked (same ▸ locked.member)
      rw [Function.update_of_ne different]
      exact overlay_of_unwritten (locked.tracks.clean other unlocked)
  member := locked.member
  kept := locked.kept
  placed := locked.placed.interfered locked.tracks.invariant (interferes.mono locked.kept)
  shown := (overlay_interfered interferes locked.member).trans locked.shown

theorem Tracks.finish {key : RegistryKey} {found after : Option RegistryRow}
    (tracks : Tracks semantics initial records workspace committed
      (Function.update target key found))
    (member : key ∈ workspace.locks) {record : CallRecord Document Report}
    (answers : Answers semantics record found after)
    (same : record.repository.key = key) :
    Tracks semantics initial (records ++ [record]) workspace committed
      (Function.update target key after) where
  invariant := tracks.invariant
  clean := tracks.clean
  chained := by
    intro other
    by_cases equal : other = key
    · subst equal
      rcases tracks.chained other with ⟨readers, own, split, visited, serial, _⟩
      rw [Function.update_self] at serial ⊢
      refine ⟨readers, own ++ [record], ?_, visited, serial.snoc answers, absurd member⟩
      rw [recordsOn_snoc same, split, List.append_assoc]
    · have chained := tracks.chained other
      rw [Function.update_of_ne equal] at chained ⊢
      exact chained.other fun named => equal (named.symm.trans same)

/-- A call ends with its row as the transaction sees it. -/
theorem Locked.finish {key : RegistryKey} {found after : Option RegistryRow}
    (locked : Locked semantics initial records start key found workspace committed)
    {record : CallRecord Document Report} (answers : Answers semantics record found after)
    (same : record.repository.key = key)
    (shown : overlay workspace.writes committed.rows key = after) :
    Working semantics initial (records ++ [record]) workspace committed := by
  have finished := locked.tracks.finish locked.member answers same
  rw [← shown, Function.update_eq_self] at finished
  exact finished

theorem Tracks.record {key : RegistryKey} (row : RegistryRow)
    (tracks : Tracks semantics initial records workspace committed target)
    (member : key ∈ workspace.locks) :
    Tracks semantics initial records (workspace.record key (.put row)) committed target where
  invariant := tracks.invariant
  chained := by
    intro other
    rw [Workspace.record_put_locks, Set.insert_eq_of_mem member]
    exact tracks.chained other
  clean := by
    intro other unlocked
    rw [Workspace.record_put_locks, Set.insert_eq_of_mem member] at unlocked
    rw [Workspace.record_put_writes, Function.update_of_ne]
    · exact tracks.clean other unlocked
    · intro equal
      exact unlocked (equal ▸ member)

/-- A call ends with a row it wrote. -/
theorem Locked.write {key : RegistryKey} {found : Option RegistryRow} {row : RegistryRow}
    (locked : Locked semantics initial records start key found workspace committed)
    {record : CallRecord Document Report}
    (answers : Answers semantics record found (some row))
    (same : record.repository.key = key) :
    Working semantics initial (records ++ [record]) (workspace.record key (.put row))
      committed := by
  rw [Working, Workspace.overlay_record_put]
  exact (locked.tracks.finish locked.member answers same).record row locked.member

/-- A call takes the lock on a row that it sees. -/
theorem Working.lockFound (working : Working semantics initial records workspace committed)
    {key : RegistryKey} {row : RegistryRow}
    (found : overlay workspace.writes committed.rows key = some row) :
    Locked semantics initial records workspace key (some row)
      (workspace.lockRow key (some row)) committed where
  tracks := by
    have same : Function.update (overlay workspace.writes committed.rows) key (some row) =
        overlay workspace.writes committed.rows := by
      rw [← found, Function.update_eq_self]
    refine ⟨working.invariant, ?_, ?_⟩
    · intro other
      rcases working.chained other with ⟨readers, own, split, visited, serial, unlocked⟩
      refine ⟨readers, own, split, visited, ?_, ?_⟩
      · dsimp only [Workspace.lockRow]
        rw [same]
        exact serial
      · intro absent
        exact unlocked fun member => absent (Set.mem_insert_of_mem key member)
    · intro other absent
      exact working.clean other fun member => absent (Set.mem_insert_of_mem key member)
  member := Set.mem_insert key workspace.locks
  kept := Set.subset_insert key workspace.locks
  placed := found ▸ working.placed key
  shown := found

/-- A call inserts the row that it misses. -/
theorem Working.lockMissing (working : Working semantics initial records workspace committed)
    {key : RegistryKey} (absent : overlay workspace.writes committed.rows key = none) :
    Locked semantics initial records workspace key none
      (workspace.record key (.put (emptyRow semantics))) committed where
  tracks := by
    refine ⟨working.invariant, ?_, ?_⟩
    · intro other
      rcases working.chained other with ⟨readers, own, split, visited, serial, unlocked⟩
      refine ⟨readers, own, split, visited, ?_, ?_⟩
      · rw [Workspace.overlay_record_put, Function.update_idem]
        by_cases same : other = key
        · subst same
          rw [Function.update_self, ← absent]
          exact serial
        · rw [Function.update_of_ne same]
          exact serial
      · intro free
        exact unlocked fun member => free (Set.mem_insert_of_mem key member)
    · intro other free
      have different : other ≠ key := by
        intro same
        exact free (same ▸ Set.mem_insert key workspace.locks)
      rw [Workspace.record_put_writes, Function.update_of_ne different]
      exact working.clean other fun member => free (Set.mem_insert_of_mem key member)
  member := Set.mem_insert key workspace.locks
  kept := Set.subset_insert key workspace.locks
  placed := absent ▸ working.placed key
  shown := by
    rw [Workspace.overlay_record_put, Function.update_self]
    rfl

end Transactions

end MeridianPostgreSQL.Registry
