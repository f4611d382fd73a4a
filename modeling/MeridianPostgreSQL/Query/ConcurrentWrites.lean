import MeridianPostgreSQL.Foundation.TransactionRuns
import MeridianPostgreSQL.Query.LostUpdates
import MeridianPostgreSQL.Query.RecordTransactions

/-! # Concurrent writes

What the transactions of all clients do to one another's records: two claims
do not take the same record, and two requests that expect the same version do
not both succeed. -/

namespace MeridianPostgreSQL.Query

open Settings
open ReadCommitted

inductive WriteError where
  | duplicateKey

abbrev RecordLog (Value : Type) := List (Executed Mutation (RecordRow Value))

abbrev RecordServer (Value : Type) := Server (RecordRow Value) WriteError (RecordLog Value)

section Transactions

variable {Value : Type} [DecidableEq Value]

/-- Transactions of writing statements that the compiler emits. -/
abbrev RecordTransaction (compiler : DMLCompiler) (layout : ResourceLayout)
    (engine : Engine Value) :=
  ClientTransaction
    (Mutation.rowStatement engine (primaryKey compiler.settings layout))
    WriteError.duplicateKey (Emits compiler layout)

/-! ## One statement -/

variable {engine : Engine Value} {keys : List String} {mutation : Mutation}
  {touched : List (Touch (RecordRow Value))} {before after : Store (RecordRow Value)}

/-- The change that a statement has made to a record. -/
theorem touched_change {key : List Value}
    (performs : Performs (mutation.rowStatement engine keys) touched before after)
    (listed : key ∈ touched.map Touch.key) :
    ∃ touch ∈ touched, touch.key = key ∧
      touch.made = mutation.change engine (before key) ∧ touch.made.keeps = false ∧
      after key = touch.made.outcome (before key) := by
  rcases List.mem_map.mp listed with ⟨touch, member, rfl⟩
  exact ⟨touch, member, rfl, (performs.made touch member).1, (performs.made touch member).2,
    performs.written touch member⟩

/-- A claimed record met the condition, and is advanced. -/
theorem claimed_record {assignments : List (String × DMLStatement)} {columns : List String}
    {condition : DMLStatement} {limit : Nat} {key : List Value}
    (performs : Performs
      ((Mutation.claim assignments columns condition limit).rowStatement engine keys) touched
      before after) (listed : key ∈ touched.map Touch.key) :
    ∃ record, before key = some record ∧ engine.holds condition record = true ∧
      after key = some (advanced engine assignments record) := by
  rcases touched_change performs listed with ⟨touch, _, _, made, real, written⟩
  cases found : before key with
  | none =>
      rw [found, Mutation.change] at made
      rw [made] at real
      cases real
  | some record =>
      rw [found, Mutation.change] at made
      refine ⟨record, rfl, ?_⟩
      split at made
      · rw [made] at written
        exact ⟨by assumption, written⟩
      · rw [made] at real
        cases real

omit [DecidableEq Value] in
/-- A record keeps its version or gets a later one, unless it is removed. -/
theorem change_version (mutation : Mutation) (record : Record Value) :
    mutation.change engine (some record) = .delete ∨
      ∃ next, (mutation.change engine (some record)).outcome (some record) = some next ∧
        record.version ≤ next.version := by
  have upsert : ∀ taken excluded, record.version ≤ (upserted taken excluded record).version := by
    intro taken excluded
    unfold upserted
    split <;> simp
  have replace : ∀ assignments, record.version ≤
      (replaced engine assignments record).version := by
    intro assignments
    unfold replaced
    split <;> simp [advanced]
  cases mutation with
  | insert columns values conflict =>
      cases conflict with
      | none => exact .inr ⟨record, rfl, le_rfl⟩
      | some conflict => exact .inr ⟨_, rfl, upsert _ _⟩
  | update | claim =>
      simp only [Mutation.change]
      split
      · exact .inr ⟨_, rfl, by simp [advanced]⟩
      · exact .inr ⟨record, rfl, le_rfl⟩
  | replace =>
      simp only [Mutation.change]
      split
      · exact .inr ⟨_, rfl, replace _⟩
      · exact .inr ⟨record, rfl, le_rfl⟩
  | delete =>
      simp only [Mutation.change]
      split
      · exact .inl rfl
      · exact .inr ⟨record, rfl, le_rfl⟩
  | importRow => exact .inr ⟨_, rfl, le_rfl⟩

/-- A record that has reached a version stays there or goes on, unless a
statement removes it. -/
theorem performs_version {version : Int} {key : List Value}
    (performs : Performs (mutation.rowStatement engine keys) touched before after)
    (kept : (⟨key, .delete⟩ : Touch (RecordRow Value)) ∉ touched)
    (reached : ∃ record, before key = some record ∧ version ≤ record.version) :
    ∃ record, after key = some record ∧ version ≤ record.version := by
  rcases reached with ⟨record, found, later⟩
  by_cases listed : key ∈ touched.map Touch.key
  · rcases touched_change performs listed with ⟨⟨_, made⟩, member, rfl, same, _, written⟩
    dsimp only at same written kept
    rw [found] at same written
    rcases change_version mutation record with removed | ⟨next, outcome, advances⟩
    · rw [same, removed] at member
      exact absurd member kept
    · exact ⟨next, by rw [written, same, outcome], later.trans advances⟩
  · exact ⟨record, by rw [performs.others key listed, found], later⟩

/-- A statement that expects a version finds it, and removes the record or
moves it on. -/
theorem expected_version {version : Json} {key : List Value}
    (expects : mutation.expected = some version)
    (performs : Performs (mutation.rowStatement engine keys) touched before after)
    (listed : key ∈ touched.map Touch.key) :
    ∃ record, before key = some record ∧ engine.versionIs version record.version = true ∧
      ((⟨key, .delete⟩ : Touch (RecordRow Value)) ∈ touched ∨
        ∃ next, after key = some next ∧ record.version + 1 ≤ next.version) := by
  rcases touched_change performs listed with ⟨⟨_, made⟩, member, rfl, same, real, written⟩
  dsimp only at same written real ⊢
  cases mutation with
  | update | delete =>
      cases expects
      cases found : before _ with
      | none =>
          rw [found, Mutation.change] at same
          rw [same] at real
          cases real
      | some record =>
          rw [found, Mutation.change] at same
          refine ⟨record, rfl, ?_⟩
          split at same
          · rename_i met
            rw [required, Bool.and_eq_true, Option.all_some] at met
            refine ⟨met.2, ?_⟩
            first
            | exact .inl (same ▸ member)
            | exact .inr ⟨_, by rw [written, same]; rfl, by simp [advanced]⟩
          · rw [same] at real
            cases real
  | _ => cases expects

/-! ## Runs -/

/-- The claims of a log. Between two that take the same record another
statement changes it, if what the first one writes no longer meets the
condition of the second. -/
structure ClaimsExclude (engine : Engine Value) (log : RecordLog Value) : Prop where
  bounded : ∀ ⦃executed⦄, executed ∈ log →
    ∀ ⦃assignments columns condition limit⦄,
      executed.command = .claim assignments columns condition limit →
      (executed.touched.map Touch.key).Nodup ∧ executed.touched.length ≤ limit
  exclusive : ∀ ⦃earlier first between second later⦄,
    log = earlier ++ first :: (between ++ second :: later) →
    ∀ ⦃assignments columns condition limit⦄,
      first.command = .claim assignments columns condition limit →
    ∀ ⦃others otherColumns wanted most⦄,
      second.command = .claim others otherColumns wanted most →
    (∀ record, engine.holds wanted (advanced engine assignments record) = false) →
    ∀ ⦃key⦄, first.Touches key → second.Touches key →
      ∃ executed ∈ between, executed.Touches key

theorem claimsExclude_of_replays {log : RecordLog Value}
    (replays : Replays (Mutation.rowStatement engine keys) log before after) :
    ClaimsExclude engine log where
  bounded := by
    intro executed member assignments columns condition limit claims
    rcases List.append_of_mem member with ⟨earlier, later, rfl⟩
    rcases replays.split with ⟨_, _, rest⟩
    cases rest with
    | cons performs _ =>
        refine ⟨performs.distinct, performs.bounded limit ?_⟩
        rw [claims]
        rfl
  exclusive := by
    rintro earlier ⟨command, touched⟩ between ⟨other, retouched⟩ later rfl
    rintro assignments columns condition limit rfl others otherColumns wanted most rfl
    intro falsifies key takes retakes
    by_contra spared
    rcases replays.around with ⟨_, _, _, _, claims, unchanged, claimsAgain⟩
    rcases claimed_record claims takes with ⟨record, _, _, left⟩
    rcases claimed_record claimsAgain retakes with ⟨found, seen, holds, _⟩
    have same := unchanged.untouched fun executed member touches =>
      spared ⟨executed, member, touches⟩
    rw [same, left] at seen
    cases seen
    rw [falsifies record] at holds
    cases holds

/-- Records stay under their keys. -/
def Placed (settings : PostgreSQLSettings) (layout : ResourceLayout)
    (rows : Store (RecordRow Value)) : Prop :=
  ∀ key record, rows key = some record → recordKey (primaryKey settings layout) record = key

section Placement

variable {settings : PostgreSQLSettings} {layout : ResourceLayout}

theorem performs_placed (sound : mutation.Sound settings layout)
    (performs : Performs (mutation.rowStatement engine (primaryKey settings layout)) touched
      before after)
    (placed : Placed settings layout before) : Placed settings layout after := by
  intro key record found
  by_cases listed : key ∈ touched.map Touch.key
  · rcases touched_change performs listed with ⟨touch, member, rfl, made, _, written⟩
    rcases performs.found touch member with ⟨_, finds⟩
    rw [written, made] at found
    have held := placed touch.key
    cases present : before touch.key with
    | none =>
        rw [present] at found
        cases mutation with
        | insert | importRow =>
            cases found
            exact of_decide_eq_true finds
        | _ => cases found
    | some old =>
        rw [present] at found
        have named := held old present
        cases mutation with
        | insert columns values upsert =>
            cases upsert with
            | none =>
                cases found
                exact named
            | some upsert =>
                cases found
                exact (upserted_key (sound _ _ rfl).2 _ old).trans named
        | update =>
            simp only [Mutation.change] at found
            split at found
            · cases found
              exact (assignedContents_key sound old).trans named
            · cases found
              exact named
        | replace =>
            simp only [Mutation.change] at found
            split at found
            · cases found
              exact (replaced_key sound old).trans named
            · cases found
              exact named
        | delete =>
            simp only [Mutation.change] at found
            split at found
            · cases found
            · cases found
              exact named
        | claim =>
            simp only [Mutation.change] at found
            split at found
            · cases found
              exact (assignedContents_key sound.2 old).trans named
            · cases found
              exact named
        | importRow =>
            cases found
            exact (takenContents_key sound.2 _ old _).trans named
  · rw [performs.others key listed] at found
    exact placed key record found

theorem replays_placed {log : RecordLog Value}
    (sound : ∀ executed ∈ log, executed.command.Sound settings layout)
    (replays : Replays (Mutation.rowStatement engine (primaryKey settings layout)) log before
      after)
    (placed : Placed settings layout before) : Placed settings layout after := by
  induction replays with
  | nil => exact placed
  | cons performs _ induction =>
      exact induction (fun executed member => sound executed (.tail _ member))
        (performs_placed (sound _ (.head _)) performs placed)

end Placement

/-- What every run leaves: the rows that its log replays to, each under its
key. -/
structure ClaimedHistory (compiler : DMLCompiler) (layout : ResourceLayout)
    (engine : Engine Value) (initial : Store (RecordRow Value)) (server : RecordServer Value) :
    Prop where
  replays : Replays (Mutation.rowStatement engine (primaryKey compiler.settings layout))
    server.committed.log.flatten initial server.committed.rows
  placed : Placed compiler.settings layout server.committed.rows
  claims : ClaimsExclude engine server.committed.log.flatten

/-- In every interleaving, claims that take a record out of one another's
condition do not take it twice. -/
theorem claims_exclude {compiler : DMLCompiler} {layout : ResourceLayout}
    (valid : layout.check = .ok ()) {initial : Store (RecordRow Value)}
    (placed : Placed compiler.settings layout initial) {server : RecordServer Value}
    (reachable : Reachable (RecordTransaction compiler layout engine) initial server) :
    ClaimedHistory compiler layout engine initial server := by
  rcases reachable_replays reachable with ⟨replays, emitted⟩
  exact ⟨replays, replays_placed (fun executed member => (emitted executed member).sound valid)
    replays placed, claimsExclude_of_replays replays⟩

/-- In every interleaving, of two requests that expect the same version of a
record only one takes effect, unless the record is removed before the other. -/
theorem expected_once {compiler : DMLCompiler} {layout : ResourceLayout}
    (exact : ∀ {version first second}, engine.versionIs version first = true →
      engine.versionIs version second = true → first = second)
    {initial : Store (RecordRow Value)} {server : RecordServer Value}
    (reachable : Reachable (RecordTransaction compiler layout engine) initial server)
    {earlier between later : RecordLog Value}
    {first second : Executed Mutation (RecordRow Value)}
    (split : server.committed.log.flatten = earlier ++ first :: (between ++ second :: later))
    {version : Json} (expects : first.command.expected = some version)
    (again : second.command.expected = some version) {key : List Value}
    (effective : first.Touches key) (repeated : second.Touches key) :
    ∃ executed ∈ first :: between, executed.Removes key := by
  have replays := (reachable_replays reachable).1
  rw [split] at replays
  rcases replays.around with ⟨_, _, _, _, one, middle, two⟩
  rcases expected_version expects one effective with ⟨record, _, named, outcome⟩
  rcases expected_version again two repeated with ⟨found, seen, same, _⟩
  by_contra kept
  have spared : ∀ executed ∈ first :: between, ¬ executed.Removes key :=
    fun executed member removes => kept ⟨executed, member, removes⟩
  have advanced := outcome.resolve_left (spared first (.head _))
  have reached := middle.row_induction
    (fun row => ∃ next, row = some next ∧ record.version + 1 ≤ next.version)
    (fun executed member _ _ performs => performs_version performs
      (spared executed (.tail _ member))) advanced
  rcases reached with ⟨next, present, later⟩
  rw [seen] at present
  cases present
  have equal := exact same named
  omega

end Transactions

/-! ## Examples -/

section Examples

/-- The rows of a table with one record at most. -/
def onlyRow (row : Option (Record Json)) : Store (RecordRow Json) :=
  Function.update (fun _ => none) workId row

theorem onlyRow_apply (row : Option (Record Json)) (key : List Json) :
    onlyRow row key = if key = workId then row else none := by
  by_cases same : key = workId
  · subst same
    simp [onlyRow]
  · simp [onlyRow, same]

abbrev workProgram (client : Client Mutation (RecordRow Json)) :
    Program (RecordRow Json) WriteError (RecordLog Json) :=
  client.program (Mutation.rowStatement workEngine workKey) .duplicateKey

theorem may_changeRow {mutation : Mutation} {rows : Store (RecordRow Json)}
    {row : Option (Record Json)} {made : Change (Record Json)}
    {post : List (Touch (RecordRow Json)) → Workspace (RecordRow Json) → Prop}
    {workspace : Workspace (RecordRow Json)}
    (seen : overlay workspace.writes rows = onlyRow row)
    (change : mutation.change workEngine row = made) (real : made.keeps = false)
    (holds : ∀ final : Workspace (RecordRow Json),
      overlay final.writes rows = onlyRow (made.outcome row) → post [⟨workId, made⟩] final) :
    ((mutation.rowStatement workEngine workKey).changeRows WriteError.duplicateKey
      [workId]).May rows ∅ post (fun _ _ => False) workspace := by
  have same : (mutation.rowStatement workEngine workKey).change workId
      (overlay workspace.writes rows workId) = made := by
    rw [seen, onlyRow_apply, if_pos rfl]
    exact change
  have recorded : overlay (workspace.record workId made).writes rows =
      onlyRow (made.outcome row) := by
    rw [Workspace.overlay_record, seen, onlyRow_apply, if_pos rfl]
    exact Function.update_idem _ _ _
  unfold RowStatement.changeRows
  rw [Program.may_bind]
  refine Program.may_write (Set.notMem_empty _) ?_
  rw [same, real]
  exact holds _ recorded

/-- A statement that finds the record, or the place for it, and changes it. -/
structure WorkStep (mutation : Mutation) (row : Option (Record Json))
    (made : Change (Record Json)) : Prop where
  unlimited : mutation.limit = none
  finds : ∀ key, mutation.finds workEngine workKey (onlyRow row) key = true ↔ key = workId
  change : mutation.change workEngine row = made
  real : made.keeps = false

theorem may_send {mutation : Mutation} {rows : Store (RecordRow Json)} {row : Option (Record Json)}
    {made : Change (Record Json)} {next : List (Touch (RecordRow Json)) → Client _ _}
    {post : RecordLog Json → Prop} {workspace : Workspace (RecordRow Json)}
    (step : WorkStep mutation row made) (seen : overlay workspace.writes rows = onlyRow row)
    (rest : ∀ final : Workspace (RecordRow Json),
      overlay final.writes rows = onlyRow (made.outcome row) →
      (workProgram (next [⟨workId, made⟩])).May rows ∅
        (fun log _ => post (⟨mutation, [⟨workId, made⟩]⟩ :: log)) (fun _ _ => False) final) :
    (workProgram (.send mutation next)).May rows ∅ (fun log _ => post log) (fun _ _ => False)
      workspace := by
  unfold workProgram Client.program RowStatement.program
  have unlimited : (mutation.rowStatement workEngine workKey).limit = none := step.unlimited
  rw [Program.may_bind, Program.may_bind, unlimited]
  refine ⟨[workId], List.nodup_singleton _, ?_, ?_⟩
  · intro key
    rw [seen, List.mem_singleton]
    exact (step.finds key).symm
  · apply may_changeRow seen step.change step.real
    intro final left
    rw [Program.may_bind]
    exact rest final left

/-- A claim locks the record and takes it. -/
theorem may_claim {mutation : Mutation} {limit : Nat} {rows : Store (RecordRow Json)}
    {row : Option (Record Json)} {made : Change (Record Json)}
    {workspace : Workspace (RecordRow Json)} (seen : overlay workspace.writes rows = onlyRow row)
    (limited : mutation.limit = some (limit + 1))
    (finds : ∀ key, mutation.finds workEngine workKey (onlyRow row) key = true ↔ key = workId)
    (change : mutation.change workEngine row = made) (real : made.keeps = false) :
    (workProgram (.send mutation fun _ => .commit)).May rows ∅
      (fun log final => log = [⟨mutation, [⟨workId, made⟩]⟩] ∧
        overlay final.writes rows = onlyRow (made.outcome row)) (fun _ _ => False) workspace := by
  have current : overlay workspace.writes rows workId = row := by
    rw [seen, onlyRow_apply, if_pos rfl]
  have taken : ((mutation.rowStatement workEngine workKey).change workId
      (overlay workspace.writes rows workId)).keeps = false := by
    rw [current]
    exact (congrArg Change.keeps change).trans real
  have free := Set.notMem_empty workId
  have limit : (mutation.rowStatement workEngine workKey).limit = some (limit + 1) := limited
  unfold workProgram Client.program RowStatement.program
  rw [Program.may_bind, Program.may_bind, limit]
  refine ⟨[workId], List.nodup_singleton _, ?_, ?_⟩
  · intro key
    rw [seen, List.mem_singleton]
    exact (finds key).symm
  · apply Program.may_bind.mpr
    unfold RowStatement.lockRows
    apply Program.may_bind.mpr
    refine .inr ⟨free, ?_⟩
    simp only [Program.May, ↓reduceIte, Program.may_bind, Program.selectForUpdate, taken,
      Bool.false_eq_true, RowStatement.lockRows]
    refine ⟨free, ?_⟩
    change ((mutation.rowStatement workEngine workKey).changeRows WriteError.duplicateKey
      [workId]).May rows ∅ _ _ _
    apply may_changeRow _ change real
    · exact fun _ left => ⟨rfl, left⟩
    · rw [Workspace.lockRow_writes]
      exact seen

/-- A claim that finds nothing takes nothing. -/
theorem may_claim_nothing {mutation : Mutation} {limit : Nat} {rows : Store (RecordRow Json)}
    {workspace : Workspace (RecordRow Json)} (limited : mutation.limit = some limit)
    (finds : ∀ key, mutation.finds workEngine workKey (overlay workspace.writes rows) key =
      false) :
    (workProgram (.send mutation fun _ => .commit)).May rows ∅
      (fun log _ => log = [⟨mutation, []⟩]) (fun _ _ => False) workspace := by
  have limit : (mutation.rowStatement workEngine workKey).limit = some limit := limited
  unfold workProgram Client.program RowStatement.program
  rw [Program.may_bind, Program.may_bind, limit]
  refine ⟨[], List.nodup_nil, ?_, ?_⟩
  · intro key
    have missed : (mutation.rowStatement workEngine workKey).finds
        (overlay workspace.writes rows) key = false := finds key
    rw [missed]
    exact ⟨fun taken => absurd taken List.not_mem_nil,
      fun taken => absurd taken Bool.false_ne_true⟩
  · apply Program.may_bind.mpr
    unfold RowStatement.lockRows
    exact rfl

theorem found_only {test : Record Json → Bool} {record : Record Json}
    (holds : test record = true) (key : List Json) :
    (onlyRow (some record) key).any test = true ↔ key = workId := by
  rw [onlyRow_apply]
  by_cases same : key = workId <;> simp [same, holds]

theorem missed_only {test : Record Json → Bool} {record : Record Json}
    (fails : test record = false) (key : List Json) :
    (onlyRow (some record) key).any test = false := by
  rw [onlyRow_apply]
  by_cases same : key = workId <;> simp [same, fails]

/-- A claim of a waiting item, which takes it out of the claim's condition. -/
theorem workClaim : ∃ claim taken limit,
    workCompiler.claimMutation workLayout workOperation
      [("id", .string "x"), ("state", .string "waiting")] [("state", .string "leased")] 5 =
        .ok claim ∧
    claim.limit = some (limit + 1) ∧
    (∀ key, claim.finds workEngine workKey (onlyRow (some (workRecord "waiting" 1))) key = true ↔
      key = workId) ∧
    claim.change workEngine (some (workRecord "waiting" 1)) = .put taken ∧
    ∀ key, claim.finds workEngine workKey (onlyRow (some taken)) key = false :=
  ⟨_, _, 4, rfl, rfl, found_only rfl, rfl, missed_only rfl⟩

theorem workRow_placed : Placed workSettings workLayout
    (onlyRow (some (workRecord "waiting" 1))) := by
  intro key record found
  rw [onlyRow_apply] at found
  split at found
  · rename_i same
    cases found
    exact same.symm
  · cases found

/-- The item is claimed twice, and taken once. -/
theorem work_claims_exclude : ∃ (server : RecordServer Json)
    (first second : Executed Mutation (RecordRow Json)),
    server.committed.log.flatten = [first, second] ∧ first.command = second.command ∧
    first.Touches workId ∧ second.touched = [] ∧
    ClaimedHistory workCompiler workLayout workEngine
      (onlyRow (some (workRecord "waiting" 1))) server := by
  rcases workClaim with ⟨claim, taken, limit, compiled, limited, finds, change, spares⟩
  have seen : overlay (Workspace.fresh : Workspace (RecordRow Json)).writes
      (onlyRow (some (workRecord "waiting" 1))) = onlyRow (some (workRecord "waiting" 1)) := rfl
  have may := may_claim seen limited finds change rfl
  let client : Client Mutation (RecordRow Json) := .send claim fun _ => .commit
  have sends : client.Sends (Emits workCompiler workLayout) := ⟨.claim compiled, fun _ => trivial⟩
  have admitted : RecordTransaction workCompiler workLayout workEngine (workProgram client) :=
    ⟨client, sends, rfl⟩
  rcases Server.run_alone admitted may with ⟨log, workspace, ⟨rfl, left⟩, first⟩
  have again := @may_claim_nothing claim _ (overlay workspace.writes _) .fresh limited
    fun key => (congrArg (claim.finds workEngine workKey · key) left).trans (spares key)
  rcases Server.run_alone admitted again with ⟨others, final, rfl, second⟩
  have valid : workLayout.check = .ok () := by decide
  have touches : (⟨claim, [⟨workId, .put taken⟩]⟩ :
      Executed Mutation (RecordRow Json)).Touches workId := List.mem_singleton_self workId
  exact ⟨_, ⟨claim, [⟨workId, .put taken⟩]⟩, ⟨claim, []⟩, rfl, rfl, touches, rfl,
    claims_exclude valid workRow_placed (first.trans second)⟩

theorem workSteps : ∃ patch delete create first created last,
    (workPatch 1).mutation workCompiler workLayout = .ok patch ∧
    workDelete.mutation workCompiler workLayout = .ok delete ∧
    workCreate.mutation workCompiler workLayout = .ok create ∧
    patch.expected = some (.int 1) ∧
    WorkStep patch (some (workRecord "waiting" 1)) (.put first) ∧
    WorkStep delete (some first) .delete ∧ WorkStep create none (.put created) ∧
    WorkStep patch (some created) (.put last) :=
  ⟨_, _, _, _, _, _, rfl, rfl, rfl, rfl, ⟨rfl, found_only rfl, rfl, rfl⟩,
    ⟨rfl, found_only rfl, rfl, rfl⟩,
    ⟨rfl, fun _ => decide_eq_true_iff.trans eq_comm, rfl, rfl⟩,
    ⟨rfl, found_only rfl, rfl, rfl⟩⟩

/-- A patch that takes effect again, after the item was deleted. -/
theorem work_expected_once : ∃ (server : RecordServer Json)
    (first second : Executed Mutation (RecordRow Json)) (between : RecordLog Json),
    Reachable (RecordTransaction workCompiler workLayout workEngine)
      (onlyRow (some (workRecord "waiting" 1))) server ∧
    server.committed.log.flatten = first :: (between ++ [second]) ∧
    first.Touches workId ∧ second.Touches workId ∧
    ∃ executed ∈ first :: between, executed.Removes workId := by
  rcases workSteps with ⟨patch, delete, create, changed, fresh, last, patched, deleted, created,
    expects, patches, deletes, creates, repeats⟩
  let client : Client Mutation (RecordRow Json) :=
    .send patch fun _ => .send delete fun _ => .send create fun _ => .send patch fun _ => .commit
  have sends : client.Sends (Emits workCompiler workLayout) :=
    ⟨mutation_emitted patched, fun _ => ⟨mutation_emitted deleted, fun _ =>
      ⟨mutation_emitted created, fun _ => ⟨mutation_emitted patched, fun _ => trivial⟩⟩⟩⟩
  have may : (workProgram client).May (onlyRow (some (workRecord "waiting" 1))) ∅
      (fun log _ => log = [⟨patch, [⟨workId, .put changed⟩]⟩, ⟨delete, [⟨workId, .delete⟩]⟩,
        ⟨create, [⟨workId, .put fresh⟩]⟩, ⟨patch, [⟨workId, .put last⟩]⟩])
      (fun _ _ => False) .fresh := by
    refine may_send patches rfl fun _ afterPatch => ?_
    refine may_send deletes afterPatch fun _ afterDelete => ?_
    refine may_send creates afterDelete fun _ afterCreate => ?_
    exact may_send repeats afterCreate fun _ _ => rfl
  have admitted : RecordTransaction workCompiler workLayout workEngine (workProgram client) :=
    ⟨client, sends, rfl⟩
  rcases Server.run_alone admitted may with ⟨log, workspace, rfl, run⟩
  have touches : ∀ mutation made, (⟨mutation, [⟨workId, made⟩]⟩ :
      Executed Mutation (RecordRow Json)).Touches workId :=
    fun _ _ => List.mem_singleton_self workId
  refine ⟨_, _, _, [_, _], run, rfl, touches _ _, touches _ _, ?_⟩
  have exact : ∀ {version first second}, workEngine.versionIs version first = true →
      workEngine.versionIs version second = true → first = second := by
    intro version first second left right
    exact Json.int.inj ((of_decide_eq_true left).symm.trans (of_decide_eq_true right))
  have split : [⟨patch, [⟨workId, .put changed⟩]⟩, ⟨delete, [⟨workId, .delete⟩]⟩,
      ⟨create, [⟨workId, .put fresh⟩]⟩, ⟨patch, [⟨workId, .put last⟩]⟩] =
      ([] : RecordLog Json) ++ ⟨patch, [⟨workId, .put changed⟩]⟩ ::
        ([⟨delete, [⟨workId, .delete⟩]⟩, ⟨create, [⟨workId, .put fresh⟩]⟩] ++
          ⟨patch, [⟨workId, .put last⟩]⟩ :: []) := rfl
  exact expected_once exact run split expects expects (touches _ _) (touches _ _)

end Examples

end MeridianPostgreSQL.Query
