import Mathlib.Data.List.Lex
import MeridianPostgreSQL.Foundation.TransactionRuns
import MeridianPostgreSQL.JsonText
import MeridianPostgreSQL.Registry.Tracking

/-! # Linearizability of the registry

Every interleaving of registry transactions commits what some serial order of
its committed calls gives. -/

namespace MeridianPostgreSQL.Registry

open ReadCommitted

variable {Document Report Version : Type} [LinearOrder Version]
  {semantics : Semantics Document Report Version}

/-! ## Savepoint bodies -/

section Plain

omit [LinearOrder Version]

theorem connection_balanced {α : Type} (repository : Repository) {body : RegistryProgram α}
    (plain : body.Plain) : (connection repository body).Balanced := by
  unfold connection
  apply Program.Balanced.bind Program.plain_timestamp.balanced
  intro reading
  split
  · exact Program.Plain.balanced trivial
  · apply Program.Balanced.transaction
    apply Program.Plain.balanced
    apply Program.Plain.bind (Program.plain_unlessRefused _)
    intro _
    exact Program.Plain.bind (Program.plain_unlessRefused _) fun _ => plain

end Plain

theorem readRow_plain (found row : Option RegistryRow) :
    (readRow semantics found row).Plain := by
  unfold readRow
  cases viewRow semantics row <;> trivial

theorem lockRow_plain (repository : Repository) :
    (lockRow semantics repository).Plain := by
  unfold lockRow
  apply Program.Plain.bind (Program.plain_unlessRefused _)
  intro _
  apply Program.Plain.bind (Program.plain_write _ _)
  intro made
  apply Program.Plain.bind (Program.plain_unlessRefused _)
  intro _
  apply Program.Plain.bind (Program.plain_selectForUpdate _)
  intro row
  cases made <;> trivial

/-- The body of a writing call. -/
theorem mutate_plain (repository : Repository)
    (decide : RegistrySnapshot Document → Int → Except RegistryError
      (CallResult Document Report × Option (RegistrySnapshot Document))) :
    (mutateBody semantics repository decide).Plain := by
  unfold mutateBody
  apply Program.Plain.bind (lockRow_plain repository)
  intro rows
  apply Program.Plain.bind (readRow_plain _ _)
  intro before
  apply Program.Plain.bind Program.plain_timestamp
  intro reading
  split
  · trivial
  · trivial
  · apply Program.Plain.bind (Program.plain_unlessRefused _)
    intro _
    exact Program.Plain.bind (Program.plain_write _ _) fun _ => Program.plain_pure _

theorem snapshot_plain (repository : Repository) :
    (snapshotBody semantics repository).Plain := by
  unfold snapshotBody
  apply Program.Plain.bind (Program.plain_unlessRefused _)
  intro _
  apply Program.Plain.bind Program.plain_select
  intro store
  exact Program.Plain.bind (readRow_plain _ _) fun _ => Program.plain_pure _

theorem serveCall_balanced (repository : Repository) (call : RegistryCall Document) :
    (serveCall semantics repository call).Balanced := by
  cases call with
  | publishSchema document expected allowBreaking =>
      simp only [serveCall, publishSchema]
      split
      · exact Program.Plain.balanced trivial
      · split
        · exact Program.Plain.balanced trivial
        · exact connection_balanced repository (mutate_plain repository _)
  | deprecateSchema reference expected =>
      simp only [serveCall, deprecateSchema]
      split
      · exact Program.Plain.balanced trivial
      · split
        · exact Program.Plain.balanced trivial
        · exact connection_balanced repository (mutate_plain repository _)
  | snapshot => exact connection_balanced repository (snapshot_plain repository)

theorem run_balanced (script : Script Document) :
    (script.run semantics : RegistryProgram (List (CallRecord Document Report))).Balanced := by
  induction script with
  | finish => exact Program.Plain.balanced trivial
  | call repository request rest induction =>
      apply Program.Balanced.bind (serveCall_balanced repository request).attempt
      intro outcome
      exact Program.Balanced.bind induction fun _ => Program.Plain.balanced trivial
  | block inner raises rest innerInduction restInduction =>
      apply Program.Balanced.bind
      · apply Program.Balanced.attempt
        apply Program.Balanced.transaction
        apply Program.Balanced.bind innerInduction
        intro records
        cases raises <;> exact Program.Plain.balanced trivial
      · intro outcome
        apply Program.Balanced.bind restInduction
        intro records
        cases outcome <;> exact Program.Plain.balanced trivial

/-! ## Statements -/

section Statements

variable {initial : RegistryStore} {records : List (CallRecord Document Report)}
  {workspace start : Workspace fun _ : RegistryKey => RegistryRow}
  {committed later : RegistryCommitted Document Report}

/-- A failed call leaves the row alone, and may take its place in the order. -/
def Rejected (semantics : Semantics Document Report Version) (initial : RegistryStore)
    (start : Workspace fun _ : RegistryKey => RegistryRow) (repository : Repository)
    (call : RegistryCall Document) (failure : CallFailure)
    (committed : RegistryCommitted Document Report) : Prop :=
  ∃ row, Answers semantics
      (recordOf repository call (.error failure) : CallRecord Document Report) row row ∧
    Placed initial start committed repository.key row

theorem rejected_unserved (working : Working semantics initial records start committed)
    (repository : Repository) (call : RegistryCall Document) {error : RegistryError}
    (early : error.Unserved) :
    Rejected semantics initial start repository call ⟨error, none⟩ committed :=
  ⟨_, .unserved error rfl rfl early, working.placed repository.key⟩

/-- An error decided over the row the call found. -/
theorem Locked.rejected {repository : Repository} {found : Option RegistryRow}
    (locked : Locked semantics initial records start repository.key found workspace committed)
    {call : RegistryCall Document} {error : RegistryError} {reading : Int}
    (served : serve semantics call reading found = .error error) :
    Rejected semantics initial start repository call ⟨error, some found⟩ committed :=
  ⟨found, .refused reading error rfl rfl served, locked.placed⟩

theorem Locked.unserved {repository : Repository} {found : Option RegistryRow}
    (locked : Locked semantics initial records start repository.key found workspace committed)
    (call : RegistryCall Document) {error : RegistryError} (early : error.Unserved) :
    Rejected semantics initial start repository call ⟨error, none⟩ committed :=
  ⟨found, .unserved error rfl rfl early, locked.placed⟩

theorem Working.rejected (working : Working semantics initial records start committed)
    {repository : Repository} {call : RegistryCall Document} {failure : CallFailure}
    (rejected : Rejected semantics initial start repository call failure committed) :
    Working semantics initial (records ++ [recordOf repository call (.error failure)])
      start committed := by
  rcases rejected with ⟨row, answers, placed⟩
  exact working.observe answers placed

theorem Working.withSaved (working : Working semantics initial records start committed)
    (saved) : Working semantics initial records { start with saved := saved } committed :=
  ⟨working.invariant, working.chained, working.clean⟩

/-- A row the transaction sees is still there after any interference. -/
theorem Working.still_present (working : Working semantics initial records start committed)
    (interferes : (registryContract semantics initial).Interferes start.locks committed later)
    {key : RegistryKey} {row : RegistryRow}
    (found : overlay start.writes committed.rows key = some row) :
    ∃ now, overlay start.writes later.rows key = some now := by
  by_cases locked : key ∈ start.locks
  · exact ⟨row, (overlay_interfered interferes locked).trans found⟩
  · have unwritten := working.clean key locked
    rw [overlay_of_unwritten unwritten] at found ⊢
    apply Option.ne_none_iff_exists'.mp
    exact present_of_interferes interferes working.invariant (by simp [found])

omit [LinearOrder Version] in
theorem lockRow_of_mem {key : RegistryKey} (member : key ∈ workspace.locks)
    (row : Option RegistryRow) : workspace.lockRow key row = workspace := by
  cases row with
  | none => rfl
  | some row => simp [Workspace.lockRow, Set.insert_eq_of_mem member]

theorem wp_lockRow (working : Working semantics initial records start committed)
    (repository : Repository) (call : RegistryCall Document) :
    (registryContract semantics initial).Wp (lockRow semantics repository)
      (fun rows after final =>
        Locked semantics initial records start repository.key rows.1 after final ∧
        rows.2 = some (rows.1.getD (emptyRow semantics)))
      (fun failure _ final => Rejected semantics initial start repository call failure final)
      start committed := by
  unfold lockRow
  rw [Contract.wp_bind]
  refine Contract.wp_unlessRefused (rejected_unserved working repository call trivial) ?_
  rw [Contract.wp_bind]
  apply Contract.wp_write.mpr
  dsimp only
  cases found : overlay start.writes committed.rows repository.key with
  | none =>
      intro later interferes invariant
      have locked := (working.lockMissing found).interfered interferes invariant
      rw [Contract.wp_bind]
      refine Contract.wp_unlessRefused (locked.unserved call trivial) ?_
      rw [Contract.wp_bind]
      apply Contract.wp_selectForUpdate.mpr
      dsimp only [insertMissing]
      rw [lockRow_of_mem locked.member, locked.shown]
      intro final further holds
      exact ⟨locked.interfered further holds, rfl⟩
  | some row =>
      intro later interferes invariant
      have waiting := working.interfered interferes invariant
      rcases working.still_present interferes found with ⟨now, shown⟩
      rw [Contract.wp_bind]
      refine Contract.wp_unlessRefused (rejected_unserved waiting repository call trivial) ?_
      rw [Contract.wp_bind]
      apply Contract.wp_selectForUpdate.mpr
      dsimp only [insertMissing, Workspace.record_keep]
      rw [shown]
      intro final further holds
      exact ⟨(waiting.lockFound shown).interfered further holds, rfl⟩

/-! ## Calls -/

/-- The outcome of a call joins the calls so far. -/
def Joined (semantics : Semantics Document Report Version) (initial : RegistryStore)
    (records : List (CallRecord Document Report)) (repository : Repository)
    (call : RegistryCall Document) (outcome : Except CallFailure (Served Document Report))
    (workspace : Workspace fun _ : RegistryKey => RegistryRow)
    (committed : RegistryCommitted Document Report) : Prop :=
  Working semantics initial (records ++ [recordOf repository call outcome]) workspace
    committed

theorem wp_connection (working : Working semantics initial records start committed)
    (repository : Repository) (call : RegistryCall Document)
    {body : RegistryProgram (Served Document Report)} (plain : body.Plain)
    (holds : ∀ begun, Working semantics initial records begun committed →
      (registryContract semantics initial).Wp body
        (fun served => Joined semantics initial records repository call (.ok served))
        (fun failure _ => Rejected semantics initial begun repository call failure)
        begun committed) :
    (registryContract semantics initial).Wp (connection repository body)
      (fun served => Joined semantics initial records repository call (.ok served))
      (fun failure => Joined semantics initial records repository call (.error failure))
      start committed := by
  unfold connection
  rw [Contract.wp_bind, Contract.wp_timestamp]
  intro reading
  split
  · exact working.rejected (rejected_unserved working repository call trivial)
  · apply Contract.wp_transaction
      (fun failure => Rejected semantics initial start repository call failure)
    · apply Program.Plain.balanced
      apply Program.Plain.bind (Program.plain_unlessRefused _)
      intro _
      exact Program.Plain.bind (Program.plain_unlessRefused _) fun _ => plain
    · rw [Contract.wp_bind]
      refine Contract.wp_unlessRefused (rejected_unserved working repository call trivial) ?_
      rw [Contract.wp_bind]
      refine Contract.wp_unlessRefused (rejected_unserved working repository call trivial) ?_
      apply (holds _ (working.withSaved _)).mono
      · exact fun served after later joined => Working.withSaved joined _
      · exact fun failure after later rejected => rejected
    · intro failure middle later first rejected second invariant
      rcases rejected with ⟨row, answers, placed⟩
      have moved := working.interfered (first.trans second) invariant
      have reached := first.invariant working.invariant
      exact moved.observe answers (placed.interfered reached second)

/-- What a writing call decides over the row it finds. -/
theorem decideCall_cases {found : Option RegistryRow} {call : RegistryCall Document}
    (writes : ∀ row, selects semantics call row = some (row.getD (emptyRow semantics)))
    {before : RegistrySnapshot Document}
    (view : viewRow semantics (some (found.getD (emptyRow semantics))) = some before)
    (reading : Int) :
    (∃ error, decideCall semantics call before reading = .error error ∧
      serve semantics call reading found = .error error) ∨
    (∃ result, decideCall semantics call before reading = .ok (result, none) ∧
      serve semantics call reading found =
        .ok (result, some (found.getD (emptyRow semantics)))) ∨
    ∃ result after, decideCall semantics call before reading = .ok (result, some after) ∧
      serve semantics call reading found = .ok (result, some (storedRow semantics after)) := by
  unfold serve
  rw [writes, view]
  dsimp only
  cases decided : decideCall semantics call before reading with
  | error error => exact .inl ⟨error, rfl, rfl⟩
  | ok decision =>
      rcases decision with ⟨result, after⟩
      cases after with
      | none => exact .inr (.inl ⟨result, rfl, rfl⟩)
      | some after => exact .inr (.inr ⟨result, after, rfl, rfl⟩)

theorem wp_mutate (working : Working semantics initial records start committed)
    (repository : Repository) (call : RegistryCall Document)
    (writes : ∀ row, selects semantics call row = some (row.getD (emptyRow semantics)))
    (decide : RegistrySnapshot Document → Int → Except RegistryError
      (CallResult Document Report × Option (RegistrySnapshot Document)))
    (decides : decide = decideCall semantics call) :
    (registryContract semantics initial).Wp (mutate semantics repository decide)
      (fun served => Joined semantics initial records repository call (.ok served))
      (fun failure => Joined semantics initial records repository call (.error failure))
      start committed := by
  subst decides
  apply wp_connection working repository call (mutate_plain repository _)
  intro begun working
  unfold mutateBody
  rw [Contract.wp_bind]
  apply (wp_lockRow working repository call).mono
  · intro rows after later held
    rcases rows with ⟨found, row⟩
    rcases held with ⟨locked, shown⟩
    dsimp only at locked shown ⊢
    rw [Contract.wp_bind, shown]
    unfold readRow
    cases view : viewRow semantics (some (found.getD (emptyRow semantics))) with
    | none =>
        refine Locked.rejected locked (?_ : serve semantics call 0 found = _)
        rw [serve, writes, view]
    | some before =>
        dsimp only
        rw [Contract.wp_pure, Contract.wp_bind, Contract.wp_timestamp]
        intro reading
        rcases decideCall_cases writes view reading with
          ⟨error, decided, served⟩ | ⟨result, decided, served⟩ |
          ⟨result, written, decided, served⟩
        · rw [decided]
          exact locked.rejected served
        · rw [decided]
          exact locked.finish (.served reading result _ rfl rfl served) rfl locked.shown
        · rw [decided]
          dsimp only
          rw [Contract.wp_bind]
          refine Contract.wp_unlessRefused (locked.unserved call trivial) ?_
          rw [Contract.wp_bind]
          apply Contract.wp_write.mpr
          dsimp only
          rw [locked.shown]
          dsimp only [updateRow]
          intro final interferes invariant
          exact Working.interfered
            (locked.write (.served reading result _ rfl rfl served) rfl)
            interferes invariant
  · exact fun failure _ _ rejected => rejected

/-- A snapshot reads the row as the transaction sees it, and locks nothing. -/
theorem wp_takeSnapshot (working : Working semantics initial records start committed)
    (repository : Repository) :
    (registryContract semantics initial).Wp (takeSnapshot semantics repository)
      (fun served => Joined semantics initial records repository .snapshot (.ok served))
      (fun failure => Joined semantics initial records repository .snapshot (.error failure))
      start committed := by
  apply wp_connection working repository .snapshot (snapshot_plain repository)
  intro begun working
  unfold snapshotBody
  rw [Contract.wp_bind]
  refine Contract.wp_unlessRefused (rejected_unserved working repository .snapshot trivial) ?_
  rw [Contract.wp_bind, Contract.wp_select]
  intro later interferes invariant
  have moved := working.interfered interferes invariant
  have placed := (working.placed repository.key).interfered working.invariant interferes
  rw [Contract.wp_bind]
  generalize overlay begun.writes committed.rows repository.key = row at placed
  unfold readRow
  cases view : viewRow semantics row with
  | none =>
      have served : serve semantics .snapshot 0 row = .error incompatible := by
        simp only [serve, selects, view]
      exact ⟨row, .refused 0 incompatible rfl rfl served, placed⟩
  | some snapshot =>
      have served : serve semantics .snapshot 0 row = .ok (.snapshot snapshot, row) := by
        simp only [serve, selects, view, decideCall]
      exact moved.observe (.served 0 (.snapshot snapshot) row rfl rfl served) placed

theorem wp_serveCall (working : Working semantics initial records start committed)
    (repository : Repository) (call : RegistryCall Document) :
    (registryContract semantics initial).Wp (serveCall semantics repository call)
      (fun served => Joined semantics initial records repository call (.ok served))
      (fun failure => Joined semantics initial records repository call (.error failure))
      start committed := by
  have rejected : ∀ {error : RegistryError}, error.Unserved →
      Joined semantics initial records repository call (.error ⟨error, none⟩) start
        committed :=
    fun early => working.rejected (rejected_unserved working repository call early)
  cases call with
  | snapshot => exact wp_takeSnapshot working repository
  | publishSchema document expected allowBreaking =>
      simp only [serveCall, publishSchema]
      split
      · exact rejected trivial
      · split
        · exact rejected trivial
        · exact wp_mutate working repository _ (fun _ => rfl) _ rfl
  | deprecateSchema address expected =>
      simp only [serveCall, deprecateSchema]
      split
      · exact rejected trivial
      · rename_i reference parsed
        split
        · exact rejected trivial
        · apply wp_mutate working repository _ (fun _ => rfl)
          funext before reading
          simp only [decideCall, parsed]

/-! ## Transactions -/

/-- The calls of a script join the calls before it, except those of blocks that
it leaves with an error. -/
theorem wp_run (script : Script Document)
    (working : Working semantics initial records start committed) :
    (registryContract semantics initial).Wp (script.run semantics)
      (fun more after final => Working semantics initial (records ++ more) after final)
      (fun _ _ _ => False) start committed := by
  induction script generalizing records start committed with
  | finish => simpa [Script.run] using working
  | call repository request rest induction =>
      unfold Script.run
      rw [Contract.wp_bind]
      apply Contract.wp_attempt.mpr
      have continued : ∀ {outcome after final},
          Joined semantics initial records repository request outcome after final →
          (registryContract semantics initial).Wp
            (rest.run semantics >>= fun more =>
              pure (recordOf repository request outcome :: more))
            (fun more after final => Working semantics initial (records ++ more) after final)
            (fun _ _ _ => False) after final := by
        intro outcome after final joined
        rw [Contract.wp_bind]
        apply (induction joined).mono
        · intro more after final grown
          simpa using grown
        · exact fun _ _ _ absurd => absurd
      apply (wp_serveCall working repository request).mono
      · exact fun served after final => continued
      · exact fun failure after final => continued
  | block inner raises rest innerInduction restInduction =>
      unfold Script.run
      rw [Contract.wp_bind]
      apply Contract.wp_attempt.mpr
      apply Contract.wp_transaction (fun _ _ => True)
      · apply Program.Balanced.bind (run_balanced inner)
        intro kept
        cases raises <;> exact Program.Plain.balanced trivial
      · rw [Contract.wp_bind]
        apply (innerInduction (working.withSaved _)).mono
        · intro kept after later grown
          cases raises with
          | true => exact trivial
          | false =>
              dsimp only
              rw [if_neg (by decide), Contract.wp_pure, Contract.wp_bind]
              apply (restInduction (Working.withSaved grown _)).mono
              · intro more final last all
                simpa [List.append_assoc] using all
              · exact fun _ _ _ absurd => absurd
        · exact fun _ _ _ absurd => absurd.elim
      · intro failure middle later first _ second invariant
        rw [Contract.wp_bind]
        exact restInduction (working.interfered (first.trans second) invariant)

theorem Working.fresh (holds : (registryContract semantics initial).Invariant committed) :
    Working semantics initial [] .fresh committed where
  invariant := holds
  clean := fun _ _ => rfl
  chained := by
    intro key
    refine ⟨[], [], rfl, ?_, .nil _, fun _ => rfl⟩
    exact fun reader absent => nomatch absent

theorem transaction_certified {program : RegistryProgram (List (CallRecord Document Report))}
    (transaction : RegistryTransaction semantics program) :
    (registryContract semantics initial).Certifies program := by
  intro committed holds
  cases transaction with
  | script script =>
      apply (wp_run script (Working.fresh holds)).mono
      · intro records after final working key
        rcases working.chained key with ⟨readers, own, split, visited, serial, _⟩
        exact ⟨readers, own, split, visited, serial, fun absurd => (absurd trivial).elim⟩
      · exact fun _ _ _ absurd => absurd.elim

end Statements

/-! ## Linearizability -/

/-- The committed calls on a key have a serial order. -/
def Linearized (semantics : Semantics Document Report Version) (initial : RegistryStore)
    (committed : RegistryCommitted Document Report) (key : RegistryKey) : Prop :=
  ∃ order : List (CallRecord Document Report),
    order.Perm (recordsOn key committed.log.flatten) ∧
    Serial semantics (initial key) order (committed.rows key)

theorem Linearized.extend {initial : RegistryStore}
    {committed : RegistryCommitted Document Report} {key : RegistryKey}
    (linearized : Linearized semantics initial committed key)
    {records : List (CallRecord Document Report)} {rows : RegistryStore}
    (effect : (registryContract semantics initial).Effect committed records rows) :
    Linearized semantics initial (committed.extend records rows) key := by
  rcases linearized with ⟨order, permuted, serial⟩
  rcases effect key with ⟨readers, own, split, visited, tail, _⟩
  have found : ∀ reader ∈ readers, ∃ row, Answers semantics reader row row ∧
      (row = initial key ∨ ∃ record ∈ order, ∃ found, record.rows = some (found, row)) := by
    intro reader member
    rcases visited reader member with ⟨row, answers, seen⟩
    refine ⟨row, answers, seen.imp id ?_⟩
    rintro ⟨record, listed, left⟩
    exact ⟨record, permuted.mem_iff.mpr listed, left⟩
  rcases serial.insertAll found with ⟨longer, grown, longerSerial⟩
  refine ⟨longer ++ own, ?_, longerSerial.append tail⟩
  rw [Committed.extend, List.flatten_append, List.flatten_singleton, recordsOn_append, split,
    ← List.append_assoc]
  apply List.Perm.append_right
  exact (grown.trans (permuted.append_left readers)).trans List.perm_append_comm

/-- Every run of registry transactions commits, on each tenant and scope, what
a serial order of its committed calls gives, with all that such an order
keeps. -/
theorem registry_linearizable (semantics : Semantics Document Report Version)
    {initial : RegistryStore} {server : RegistryServer Document Report}
    (reachable : Reachable (RegistryTransaction semantics) initial server)
    (key : RegistryKey) :
    ∃ order : List (CallRecord Document Report),
      order.Perm (recordsOn key server.committed.log.flatten) ∧
      SerialHistory semantics (initial key) order (server.committed.rows key) := by
  have linearized := (registryContract semantics initial).reachable_induction
    (fun committed => ∀ key, Linearized semantics initial committed key)
    (fun program admitted => transaction_certified admitted) (fun key => .inl rfl)
    (fun key => ⟨[], .refl _, .nil _⟩)
    (fun _ holds effect key => (holds key).extend effect) reachable key
  rcases linearized with ⟨order, permuted, serial⟩
  exact ⟨order, permuted, serial.history⟩

/-! ## Schemas that list fields -/

structure FieldSchema where
  reference : SchemaReference
  fields : List String

def fieldReference (reference : SchemaReference) : Json :=
  .object [("catalog", .string reference.catalog),
    ("namespace", .string reference.namespaceName),
    ("name", .string reference.name), ("version", .string reference.version)]

def fieldDefinition (schema : FieldSchema) : Json :=
  .object [("fields", .array (schema.fields.map .string))]

def statusText : SchemaStatus → String
  | .published => "published"
  | .deprecated => "deprecated"

def timestampJson : Option String → Json
  | none => .null
  | some text => .string text

def fieldPublication (item : PublishedSchema FieldSchema) : Json :=
  .object [("schema", fieldDefinition item.document),
    ("status", .string (statusText item.status)),
    ("publishedAt", .string item.publishedAt),
    ("deprecatedAt", timestampJson item.deprecatedAt)]

def fieldSnapshot (snapshot : RegistrySnapshot FieldSchema) : Json.Object :=
  [("revision", .int snapshot.revision), ("fingerprint", .string snapshot.fingerprint),
    ("schemas", .array (snapshot.schemas.map fieldPublication)),
    ("resources", .array [])]

def textOf (members : Json.Object) (name : String) : Option String :=
  match Json.get members name with
  | some (.string text) => some text
  | _ => none

def parseFieldReference : Json → Option SchemaReference
  | .object members => do
      let catalog ← textOf members "catalog"
      let namespaceName ← textOf members "namespace"
      let name ← textOf members "name"
      let version ← textOf members "version"
      some ⟨catalog, namespaceName, name, version⟩
  | _ => none

def parseFields (reference : SchemaReference) : Json → Option FieldSchema
  | .object members =>
      match Json.get members "fields" with
      | some (.array items) =>
          some ⟨reference, items.filterMap fun
            | .string text => some text
            | _ => none⟩
      | _ => none
  | _ => none

theorem fieldReference_faithful {left right : SchemaReference}
    (same : (fieldReference left).python = (fieldReference right).python) :
    left = right := by
  have members := Json.get_of_python same (by simp [Json.names]) (by simp [Json.names])
  have catalogs := members "catalog"
  have namespaces := members "namespace"
  have names := members "name"
  have versions := members "version"
  simp [Json.get, List.lookup_cons] at catalogs namespaces names versions
  rcases left with ⟨_, _, _, _⟩
  rcases right with ⟨_, _, _, _⟩
  simp_all

theorem fieldPublication_faithful {left right : PublishedSchema FieldSchema}
    (same : (fieldPublication left).canonical = (fieldPublication right).canonical)
    (references : left.document.reference = right.document.reference) : left = right := by
  have members := Json.get_of_normalize id same (by simp [Json.names])
    (by simp [Json.names])
  have schemas := members "schema"
  have statuses := members "status"
  have published := members "publishedAt"
  have deprecated := members "deprecatedAt"
  simp [Json.get, List.lookup_cons, Json.normalize] at schemas statuses published deprecated
  have fields := Json.get_of_normalize id schemas (by simp [Json.names])
    (by simp [Json.names]) "fields"
  simp [Json.get, Json.normalize, Json.normalizeItems_eq] at fields
  have listed : left.document.fields = right.document.fields := by
    apply List.map_injective_iff.mpr _ fields
    intro first second equal
    simpa [Json.normalize] using equal
  clear members schemas same fields
  rcases left with ⟨⟨_, _⟩, status, _, ended⟩
  rcases right with ⟨⟨_, _⟩, other, _, last⟩
  cases status <;> cases other <;> cases ended <;> cases last <;>
    simp_all [statusText, timestampJson, Json.normalize]

/-- Versions are compared number by number. -/
def fieldSemantics : Semantics FieldSchema Bool (List Nat) where
  reference := FieldSchema.reference
  fingerprint := fun schema => (fieldDefinition schema).asText
  validate := fun schema => schema.fields.Nodup
  fromDefinition := parseFields
  parseReference := parseFieldReference
  referenceDict := fieldReference
  publicationDict := fieldPublication
  snapshotDict := fieldSnapshot
  parseStatus := fun
    | .string text =>
        if text = "published" then some .published
        else if text = "deprecated" then some .deprecated
        else none
    | _ => none
  parseVersion := fun text => (text.splitOn ".").map fun part => part.toNat?.getD 0
  classifyCompatibility := fun previous next => previous.fields.all (· ∈ next.fields)
  breaking := fun compatible => !compatible
  sha256Fingerprint := fun value => value.canonical.asText
  offsetAware := fun text => text.toList.getLast? == some 'Z'
  stamp := fun reading => toString reading ++ "Z"
  column := .unchanged
  collisionFree := fun _ _ same => Json.asText_injective same
  dict_fingerprint := fun _ => rfl
  dict_names := fun _ => by simp [fieldSnapshot, Json.names]
  dict_faithful := fun _ _ dicts references =>
    fieldPublication_faithful dicts (fieldReference_faithful references)

def exampleRepository : Repository := ⟨"acme", [], none⟩

def exampleSchema : FieldSchema :=
  ⟨⟨"structured", "sales", "order", "1.0.0"⟩, ["id", "total"]⟩

def customerSchema : FieldSchema :=
  ⟨⟨"structured", "sales", "customer", "1.0.0"⟩, ["id"]⟩

def publication (schema : FieldSchema) : Script FieldSchema :=
  .call exampleRepository (.publishSchema schema none false) .finish

theorem exampleView :
    viewRow fieldSemantics (some (emptyRow fieldSemantics)) =
      some (snapshotOf fieldSemantics 0 []) := by
  have empty : (snapshotOf fieldSemantics 0 []).schemas = [] := List.mergeSort_nil
  have schemas : Json.get (payload fieldSemantics (snapshotOf fieldSemantics 0 []))
      "schemas" = some (.array []) := by
    change some (Json.array ((snapshotOf fieldSemantics 0 []).schemas.map _)) = _
    rw [empty]
    rfl
  have references : Json.get (payload fieldSemantics (snapshotOf fieldSemantics 0 []))
      "references" = some (.array []) := by
    change some (Json.array ((snapshotOf fieldSemantics 0 []).schemas.map _)) = _
    rw [empty]
    rfl
  have loaded : fieldSemantics.column.load (emptyRow fieldSemantics).payload =
      .object (payload fieldSemantics (snapshotOf fieldSemantics 0 [])) := rfl
  unfold viewRow decodeRow
  dsimp only
  rw [loaded]
  dsimp only
  rw [if_neg (by decide), if_neg (not_not_intro (.refl _)), schemas, references]
  dsimp only
  rw [if_neg (not_not_intro rfl)]
  have equal : Json.equals (.object (payload fieldSemantics (snapshotOf fieldSemantics 0 [])))
      (.object (payload fieldSemantics (snapshotOf fieldSemantics 0 []))) = true :=
    decide_eq_true rfl
  exact if_pos ⟨List.nodup_nil, equal, rfl⟩

/-- The row is inserted if it is missing, locked and read. -/
theorem may_lockRow {repository : Repository} {rows : RegistryStore} {held : Set RegistryKey}
    {workspace : Workspace fun _ : RegistryKey => RegistryRow} {found : Option RegistryRow}
    {post : Option RegistryRow × Option RegistryRow →
      Workspace (fun _ : RegistryKey => RegistryRow) → Prop}
    {failed : CallFailure → Workspace (fun _ : RegistryKey => RegistryRow) → Prop}
    (available : repository.key ∉ held)
    (present : overlay workspace.writes rows repository.key = found)
    (holds : ∀ final : Workspace (fun _ : RegistryKey => RegistryRow),
      final.saved = workspace.saved →
      overlay final.writes rows repository.key = some (found.getD (emptyRow semantics)) →
      post (found, some (found.getD (emptyRow semantics))) final) :
    (lockRow semantics repository).May rows held post failed workspace := by
  unfold lockRow
  apply Program.may_bind.mpr
  apply Program.may_unlessRefused
  apply Program.may_bind.mpr
  apply Program.may_write available
  rw [present]
  apply Program.may_bind.mpr
  apply Program.may_unlessRefused
  apply Program.may_bind.mpr
  apply Program.may_selectForUpdate available
  cases found with
  | none =>
      have shown : overlay (workspace.record repository.key (.put (emptyRow semantics))).writes
          rows repository.key = some (emptyRow semantics) := by
        simp [overlay, Workspace.record]
      dsimp only [insertMissing]
      rw [shown, lockRow_of_mem (by simp [Workspace.record])]
      exact holds _ (Workspace.record_saved _ _ _) shown
  | some row =>
      dsimp only [insertMissing]
      rw [Workspace.record_keep, present]
      exact holds _ rfl present

/-- A schema is published on the snapshot that the row shows. -/
theorem may_publish {rows : RegistryStore} {found : Option RegistryRow} {schema : FieldSchema}
    {before after : RegistrySnapshot FieldSchema} {result : PublishResult FieldSchema Bool}
    (present : rows exampleRepository.key = found)
    (view : viewRow fieldSemantics (some (found.getD (emptyRow fieldSemantics))) = some before)
    (known : (fieldSemantics.reference schema).catalog ∈ supportedCatalogs)
    (valid : fieldSemantics.validate schema = true)
    (decided : decidePublication fieldSemantics before schema none false
      (fieldSemantics.stamp 0) = .ok (result, some after))
    (advances : revisionOf found ≠ revisionOf (some (storedRow fieldSemantics after))) :
    ((publication schema).run fieldSemantics).May rows ∅
      (fun records final => (∃ record, records = [record] ∧ record.effective = true) ∧
        overlay final.writes rows exampleRepository.key =
          some (storedRow fieldSemantics after))
      (fun _ _ => False) .fresh := by
  unfold publication Script.run
  apply Program.may_bind.mpr
  apply Program.may_attempt
  simp only [serveCall, publishSchema]
  rw [if_neg (not_not_intro known), if_neg (ne_true_of_eq_false · valid)]
  unfold mutate connection
  apply Program.may_bind.mpr
  apply Program.may_timestamp 0
  rw [if_neg (by decide)]
  apply Program.may_transaction
  apply Program.may_bind.mpr
  apply Program.may_unlessRefused
  apply Program.may_bind.mpr
  apply Program.may_unlessRefused
  unfold mutateBody
  apply Program.may_bind.mpr
  refine may_lockRow (Set.notMem_empty _) present fun locked kept shown => ?_
  simp only [readRow, view]
  apply Program.may_bind.mpr
  apply Program.may_bind.mpr
  apply Program.may_timestamp 0
  rw [decided]
  apply Program.may_bind.mpr
  apply Program.may_unlessRefused
  apply Program.may_bind.mpr
  apply Program.may_write (Set.notMem_empty _)
  rw [shown]
  refine ⟨_, (Workspace.record_saved _ _ _).trans kept, ⟨_, rfl, decide_eq_true advances⟩, ?_⟩
  exact (congrFun (Workspace.overlay_record_put _ _ _ _) _).trans (Function.update_self _ _ _)

def exampleItem : PublishedSchema FieldSchema := ⟨exampleSchema, .published, "0Z", none⟩

/-- The registry with the schema alone. -/
def exampleSnapshot : RegistrySnapshot FieldSchema := snapshotOf fieldSemantics 1 [exampleItem]

theorem exampleDecision :
    decidePublication fieldSemantics (snapshotOf fieldSemantics 0 []) exampleSchema none false
        (fieldSemantics.stamp 0) = .ok (⟨exampleItem, false, 1, none⟩, some exampleSnapshot) := by
  have empty : (snapshotOf fieldSemantics 0 []).schemas = [] := List.mergeSort_nil
  unfold decidePublication versionsOf
  rw [empty]
  rfl

theorem exampleSnapshot_schemas : exampleSnapshot.schemas = [exampleItem] :=
  List.mergeSort_singleton _

def exampleMembers : Json.Object :=
  [("schema", fieldDefinition exampleSchema), ("status", .string "published"),
    ("publishedAt", .string "0Z"), ("deprecatedAt", .null)]

theorem exampleItem_read : readPublication fieldSemantics supportedCatalogs
    (.object exampleMembers) (fieldReference exampleSchema.reference) = some exampleItem := by
  have definition : Json.get exampleMembers "schema" = some (fieldDefinition exampleSchema) := rfl
  have reference : fieldSemantics.parseReference (fieldReference exampleSchema.reference) =
      some exampleSchema.reference := rfl
  have parsed : fieldSemantics.fromDefinition exampleSchema.reference
      (fieldDefinition exampleSchema) = some exampleSchema := rfl
  have status : (Json.get exampleMembers "status").bind fieldSemantics.parseStatus =
      some .published := rfl
  have published : readTimestamp fieldSemantics exampleMembers "publishedAt" =
      some (some "0Z") := rfl
  have deprecated : readTimestamp fieldSemantics exampleMembers "deprecatedAt" = some none := rfl
  have entry : Json.equals (fieldSemantics.publicationDict exampleItem)
      (.object exampleMembers) = true := decide_eq_true rfl
  have address : Json.equals (fieldSemantics.referenceDict exampleSchema.reference)
      (fieldReference exampleSchema.reference) = true := decide_eq_true rfl
  unfold readPublication
  dsimp only
  simp only [definition, reference, parsed, status, published, deprecated, Option.bind_eq_bind,
    Option.bind_some]
  rw [if_neg (by decide), if_neg (by decide), if_neg (by decide), if_neg (by decide)]
  refine if_neg ?_
  rintro (differs | differs)
  · exact Bool.noConfusion (entry.symm.trans differs)
  · exact Bool.noConfusion (address.symm.trans differs)

theorem exampleSnapshot_view :
    viewRow fieldSemantics (some (storedRow fieldSemantics exampleSnapshot)) =
      some exampleSnapshot := by
  have shown : payload fieldSemantics exampleSnapshot =
      [("revision", .int 1), ("fingerprint", .string exampleSnapshot.fingerprint),
        ("schemas", .array [.object exampleMembers]), ("resources", .array []),
        ("references", .array [fieldReference exampleSchema.reference])] := by
    unfold payload
    change _ ++ [("references", Json.array (exampleSnapshot.schemas.map _))] = _
    rw [exampleSnapshot_schemas]
    change fieldSnapshot exampleSnapshot ++ _ = _
    unfold fieldSnapshot
    rw [exampleSnapshot_schemas]
    rfl
  have loaded : fieldSemantics.column.load (storedRow fieldSemantics exampleSnapshot).payload =
      .object (payload fieldSemantics exampleSnapshot) := rfl
  have revision : ¬(storedRow fieldSemantics exampleSnapshot).revision < 0 := by decide
  have schemas : Json.get (payload fieldSemantics exampleSnapshot) "schemas" =
      some (.array [.object exampleMembers]) := by
    rw [shown]
    rfl
  have references : Json.get (payload fieldSemantics exampleSnapshot) "references" =
      some (.array [fieldReference exampleSchema.reference]) := by
    rw [shown]
    rfl
  have names : (Json.names (payload fieldSemantics exampleSnapshot)).Perm payloadFields := by
    rw [shown]
    exact .refl _
  have equal : Json.equals (.object (payload fieldSemantics exampleSnapshot))
      (.object (payload fieldSemantics exampleSnapshot)) = true := decide_eq_true rfl
  have lengths : ¬[Json.object exampleMembers].length ≠
      [fieldReference exampleSchema.reference].length := not_not_intro rfl
  have read : ([Json.object exampleMembers].zip [fieldReference exampleSchema.reference]).mapM
      (fun pair => readPublication fieldSemantics supportedCatalogs pair.1 pair.2) =
        some [exampleItem] := by
    simp only [List.zip_cons_cons, List.zip_nil_left, List.mapM_cons, List.mapM_nil,
      exampleItem_read]
    rfl
  unfold viewRow decodeRow
  dsimp only
  rw [loaded]
  dsimp only
  rw [if_neg revision, if_neg (not_not_intro names), schemas, references]
  dsimp only
  rw [if_neg lengths, read]
  exact if_pos ⟨List.nodup_singleton _, equal, rfl⟩

def customerItem : PublishedSchema FieldSchema := ⟨customerSchema, .published, "0Z", none⟩

/-- Another schema has no versions yet. -/
theorem customerDecision :
    decidePublication fieldSemantics exampleSnapshot customerSchema none false
        (fieldSemantics.stamp 0) = .ok (⟨customerItem, false, 2, none⟩,
      some (snapshotOf fieldSemantics 2 [exampleItem, customerItem])) := by
  unfold decidePublication versionsOf
  rw [exampleSnapshot_schemas]
  rfl

/-- Two schemas are published, in a transaction each. -/
theorem registry_linearizable_published : ∃ (server : RegistryServer FieldSchema Bool)
    (first second : CallRecord FieldSchema Bool),
    server.committed.log = [[first], [second]] ∧ first.effective = true ∧
    second.effective = true ∧
    ∃ order : List (CallRecord FieldSchema Bool),
      order.Perm (recordsOn exampleRepository.key server.committed.log.flatten) ∧
      SerialHistory fieldSemantics none order
        (server.committed.rows exampleRepository.key) := by
  have admitted : ∀ schema, RegistryTransaction fieldSemantics
      ((publication schema).run fieldSemantics) := fun schema => .script (publication schema)
  have publishes := @may_publish (fun _ => none) none exampleSchema _ _ _ rfl exampleView
    (by decide) (by decide) exampleDecision (by decide)
  obtain ⟨_, workspace, ⟨⟨first, rfl, effective⟩, stored⟩, published⟩ :=
    Server.run_alone (admitted exampleSchema) publishes
  have again := may_publish stored exampleSnapshot_view (by decide) (by decide)
    customerDecision (by decide)
  obtain ⟨_, final, ⟨⟨second, rfl, followed⟩, _⟩, extended⟩ :=
    Server.run_alone (admitted customerSchema) again
  exact ⟨_, first, second, rfl, effective, followed,
    registry_linearizable fieldSemantics (published.trans extended) exampleRepository.key⟩

end MeridianPostgreSQL.Registry
