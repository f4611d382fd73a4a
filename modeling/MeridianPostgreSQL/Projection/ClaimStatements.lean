import MeridianPostgreSQL.Query.DmlAlignment
import MeridianPostgreSQL.Projection.Outbox

/-! # Statements of a claim

The SQL of `atomic_claim`: the statement that selects eligible intents and the
one that leases each of them. -/

namespace MeridianPostgreSQL.Projection

open Settings
open Query

/-- A port with the settings and the layout of its outbox Resource. -/
structure OutboxTables where
  outbox : Outbox
  settings : PostgreSQLSettings
  layout : ResourceLayout

def stateTable : String := "__meridian_outbox_state"

namespace OutboxTables

variable (tables : OutboxTables)

def intents : Sql Query.Origin := tableName tables.settings tables.layout

def states : Sql Query.Origin :=
  ident [tables.settings.physicalSchema.text, stateTable]

/-- `_column`. A validated layout has every field of an intent. -/
def column (tableAlias name : String) : Sql Query.Origin :=
  ident [tableAlias, ((tables.layout.field name).map fun field => field.column.text).getD name]

/-- The scope columns with the values the port was opened with. -/
def scopeValues : List (String × String) :=
  ("__tenant", tables.outbox.scope.tenant) ::
    tables.settings.scopeKeys.filterMap fun key =>
      (tables.outbox.scope.scope.lookup key.text).map fun value => ("__scope_" ++ key.text, value)

/-- The stored scope. -/
def scopeJson : Json :=
  .object [("tenant", .string tables.outbox.scope.tenant),
    ("scope", .object (tables.outbox.scope.scope.map fun entry => (entry.1, .string entry.2)))]

/-- The values that the statements of a claim name. -/
def named : List (String × DriverValue) :=
  [("scope", .jsonb tables.scopeJson), ("resource_ref", .plain (.string tables.outbox.resource)),
    ("projection", .plain (.string tables.outbox.spec.name)),
    ("sourceCatalog", .plain (.string tables.outbox.spec.sourceCatalog)),
    ("sourceResource", .plain (.string tables.outbox.spec.source)),
    ("sourceSchema", .plain (.string tables.outbox.spec.sourceSchema)),
    ("targetLabels", .jsonb (.array (tables.outbox.spec.targetLabels.map Json.string)))]

def equals (tableAlias name value : String) : DMLStatement :=
  ⟨tables.column tableAlias name ++ [Piece.text " = ", .slot (.outbox tableAlias name)],
    [⟨.outbox tableAlias name, .plain (.string value)⟩]⟩

/-- `_selection` -/
def selection (tableAlias : String) : DMLStatement :=
  conjunction
    ((tables.scopeValues.map fun entry =>
      ⟨ident [tableAlias, entry.1] ++ [Piece.text " = ", .slot (.scope tableAlias entry.1)],
        [⟨.scope tableAlias entry.1, .plain (.string entry.2)⟩]⟩) ++
    [tables.equals tableAlias "sourceCatalog" tables.outbox.spec.sourceCatalog,
      tables.equals tableAlias "sourceResource" tables.outbox.spec.source,
      tables.equals tableAlias "sourceSchema" tables.outbox.spec.sourceSchema,
      ⟨tables.column tableAlias "targetLabels" ++
          [Piece.text " @> ", .slot (.outbox tableAlias "targetLabels")],
        [⟨.outbox tableAlias "targetLabels",
          .jsonb (.array (tables.outbox.spec.targetLabels.map Json.string))⟩]⟩])

/-- `_key_values` -/
def keyParameters (tableAlias : String) : List (Parameter Query.Origin DriverValue) :=
  [⟨.outbox tableAlias "scope", .jsonb tables.scopeJson⟩,
    ⟨.outbox tableAlias "resource_ref", .plain (.string tables.outbox.resource)⟩,
    ⟨.outbox tableAlias "projection", .plain (.string tables.outbox.spec.name)⟩]

/-- `_key` -/
def key (tableAlias : String) : DMLStatement :=
  ⟨[.name tableAlias, .text ".scope = ", .slot (.outbox tableAlias "scope"), .text " AND ",
      .name tableAlias, .text ".resource_ref = ", .slot (.outbox tableAlias "resource_ref"),
      .text " AND ", .name tableAlias, .text ".projection = ",
      .slot (.outbox tableAlias "projection")], tables.keyParameters tableAlias⟩

/-- `_join` -/
def join (row state : String) : DMLStatement :=
  ⟨[Piece.text "LEFT JOIN "] ++ tables.states ++ [Piece.text " ", .name state, .text " ON "] ++
      (tables.key state).command ++
      [Piece.text " AND ", .name state, .text ".event_id = "] ++ tables.column row "eventId",
    (tables.key state).parameters⟩

def intentFields : List String :=
  ["formatVersion", "eventId", "sourceCatalog", "sourceResource", "sourceSchema",
    "sourceIdentity", "sourceVersion", "mutationKind", "payload", "immutableReference",
    "targetLabels", "occurredAt", "operationContext", "digest"]

/-- `_fields` -/
def fields (tableAlias : String) : Sql Query.Origin :=
  joined ", " (intentFields.map fun name =>
    tables.column tableAlias name ++ [Piece.text " AS ", .name name])

/-- The order of the versions of one identity, numeric ones first. -/
def versionOrder (tableAlias : String) : Sql Query.Origin :=
  let version := tables.column tableAlias "sourceVersion"
  [Piece.text "(CASE WHEN jsonb_typeof("] ++ version ++
    [Piece.text ") = 'number' THEN 0 ELSE 1 END, CASE WHEN jsonb_typeof("] ++ version ++
    [Piece.text ") = 'number' THEN ("] ++ version ++
    [Piece.text " #>> '{}')::numeric ELSE 0 END, "] ++
    tables.column tableAlias "occurredAt" ++ [Piece.text ", "] ++
    tables.column tableAlias "eventId" ++ [Piece.text ")"]

/-- The state of the intent lets it be claimed. -/
def claimable (current : Int) : DMLStatement :=
  ⟨[.text " AND (s.state IS NULL OR s.state = 'RETRYABLE' OR ",
      .text "(s.state = 'LEASED' AND s.expires_at <= ", .slot (.outbox "s" "expires_at"),
      .text ")) "], [⟨.outbox "s" "expires_at", .plain (.int current)⟩]⟩

/-- No earlier intent of the same identity is incomplete. -/
def firstOfIdentity : DMLStatement :=
  let priorState := tables.join "p" "ps"
  let previous := tables.selection "p"
  let condition := tables.column "p" "sourceIdentity" ++ [Piece.text " IS NOT DISTINCT FROM "] ++
    tables.column "i" "sourceIdentity" ++ [Piece.text " AND "] ++ tables.versionOrder "p" ++
    [Piece.text " < "] ++ tables.versionOrder "i"
  ⟨[Piece.text "AND NOT EXISTS (SELECT 1 FROM "] ++ tables.intents ++ [Piece.text " p "] ++
      priorState.command ++ [Piece.text " WHERE "] ++ previous.command ++ [Piece.text " AND "] ++
      condition ++ [Piece.text " AND COALESCE(ps.state, 'PENDING') <> 'COMPLETED') "],
    priorState.parameters ++ previous.parameters⟩

/-- The statement of `atomic_claim` that selects eligible intents. -/
def claimStatement (current : Int) (limit : Nat) : DMLStatement :=
  let selected := tables.selection "i"
  let state := tables.join "i" "s"
  let order := tables.column "i" "occurredAt" ++ [Piece.text ", "] ++ tables.column "i" "eventId"
  ⟨[Piece.text "SELECT "] ++ tables.fields "i" ++ [Piece.text ", s.* FROM "] ++ tables.intents ++
      [Piece.text " i "] ++ state.command ++ [Piece.text " WHERE "] ++ selected.command ++
      (claimable current).command ++ tables.firstOfIdentity.command ++ [Piece.text "ORDER BY "] ++
      order ++ [Piece.text " LIMIT ", .slot .limit, .text " FOR UPDATE OF i SKIP LOCKED"],
    state.parameters ++ selected.parameters ++ (claimable current).parameters ++
      tables.firstOfIdentity.parameters ++ [⟨.limit, .plain (.int limit)⟩]⟩

/-- The statement of `atomic_claim` that leases one intent. -/
def leaseStatement (event owner : String) (current duration : Int) : DMLStatement :=
  ⟨[Piece.text "INSERT INTO "] ++ tables.states ++
      [Piece.text " AS s (scope, resource_ref, projection, event_id, state, attempt, ",
        .text "owner, acquired_at, expires_at) VALUES (", .slot (.outbox "" "scope"), .text ",",
        .slot (.outbox "" "resource_ref"), .text ",", .slot (.outbox "" "projection"),
        .text ",", .slot (.outbox "" "event_id"), .text ",'LEASED',1,",
        .slot (.outbox "" "owner"), .text ",", .slot (.outbox "" "acquired_at"), .text ",",
        .slot (.outbox "" "expires_at"),
        .text ") ON CONFLICT (scope, resource_ref, projection, event_id) DO UPDATE SET ",
        .text "state = 'LEASED', attempt = s.attempt + 1, owner = EXCLUDED.owner, ",
        .text "acquired_at = EXCLUDED.acquired_at, expires_at = EXCLUDED.expires_at, ",
        .text "failure = NULL WHERE s.state = 'RETRYABLE' OR ",
        .text "(s.state = 'LEASED' AND s.expires_at <= EXCLUDED.acquired_at) RETURNING *"],
    tables.keyParameters "" ++
      [⟨.outbox "" "event_id", .plain (.string event)⟩,
        ⟨.outbox "" "owner", .plain (.string owner)⟩,
        ⟨.outbox "" "acquired_at", .plain (.int current)⟩,
        ⟨.outbox "" "expires_at", .plain (.int (current + duration))⟩]⟩

/-! ## Alignment -/

/-- What a claim supplies for a slot. Times are microseconds. -/
inductive ClaimSupplies (current : Int) (limit : Nat) : Query.Origin → DriverValue → Prop
  | scope {tableAlias column value} (held : (column, value) ∈ tables.scopeValues) :
      ClaimSupplies current limit (.scope tableAlias column) (.plain (.string value))
  | named {tableAlias name value} (held : (name, value) ∈ tables.named) :
      ClaimSupplies current limit (.outbox tableAlias name) value
  | expired : ClaimSupplies current limit (.outbox "s" "expires_at") (.plain (.int current))
  | limit : ClaimSupplies current limit .limit (.plain (.int limit))

inductive LeaseSupplies (event owner : String) (current duration : Int) :
    Query.Origin → DriverValue → Prop
  | named {name value} (held : (name, value) ∈ tables.named) :
      LeaseSupplies event owner current duration (.outbox "" name) value
  | event : LeaseSupplies event owner current duration (.outbox "" "event_id")
      (.plain (.string event))
  | owner : LeaseSupplies event owner current duration (.outbox "" "owner")
      (.plain (.string owner))
  | acquired : LeaseSupplies event owner current duration (.outbox "" "acquired_at")
      (.plain (.int current))
  | expires : LeaseSupplies event owner current duration (.outbox "" "expires_at")
      (.plain (.int (current + duration)))

variable (current : Int) (limit : Nat)

@[simp] theorem slots_column (tableAlias name : String) :
    slots (tables.column tableAlias name) = [] := by
  simp [column]

@[simp] theorem slots_versionOrder (tableAlias : String) :
    slots (tables.versionOrder tableAlias) = [] := by
  simp [versionOrder]

@[simp] theorem slots_fields (tableAlias : String) : slots (tables.fields tableAlias) = [] := by
  simp [fields, List.flatMap_map]

@[simp] theorem slots_intents : slots tables.intents = [] := by
  simp [intents, tableName]

@[simp] theorem slots_states : slots tables.states = [] := by
  simp [states]

theorem selection_supplied (tableAlias : String) :
    Supplied (tables.ClaimSupplies current limit) (tables.selection tableAlias) := by
  apply Supplied.conjunction
  intro part listed
  rcases List.mem_append.mp listed with inside | inside
  · rcases List.mem_map.mp inside with ⟨entry, held, rfl⟩
    exact ⟨by simp, List.forall_mem_singleton.mpr (.scope held)⟩
  · simp only [List.mem_cons, List.not_mem_nil, or_false] at inside
    rcases inside with rfl | rfl | rfl | rfl <;>
      exact ⟨by simp [equals], List.forall_mem_singleton.mpr (.named (by simp [named]))⟩

theorem join_supplied (row state : String) :
    Supplied (tables.ClaimSupplies current limit) (tables.join row state) := by
  refine ⟨by simp [join, key, keyParameters], ?_⟩
  simp only [join, key, keyParameters, List.forall_mem_cons]
  exact ⟨.named (by simp [named]), .named (by simp [named]), .named (by simp [named]), by simp⟩

theorem firstOfIdentity_supplied :
    Supplied (tables.ClaimSupplies current limit) tables.firstOfIdentity := by
  have previous := tables.selection_supplied current limit "p"
  have priorState := tables.join_supplied current limit "p" "ps"
  constructor
  · simp [firstOfIdentity, previous.aligned.slots_eq, priorState.aligned.slots_eq]
  · exact List.forall_mem_append.mpr ⟨priorState.values, previous.values⟩

theorem claimStatement_supplied :
    Supplied (tables.ClaimSupplies current limit) (tables.claimStatement current limit) := by
  have selected := tables.selection_supplied current limit "i"
  have state := tables.join_supplied current limit "i" "s"
  have first := tables.firstOfIdentity_supplied current limit
  unfold claimStatement
  dsimp only
  constructor
  · rw [aligned_mk]
    simp [claimable, selected.aligned.slots_eq, state.aligned.slots_eq, first.aligned.slots_eq]
  · simp only [List.forall_mem_append, List.forall_mem_singleton]
    exact ⟨⟨⟨⟨state.values, selected.values⟩, List.forall_mem_singleton.mpr .expired⟩,
      first.values⟩, .limit⟩

theorem leaseStatement_supplied (event owner : String) (duration : Int) :
    Supplied (tables.LeaseSupplies event owner current duration)
      (tables.leaseStatement event owner current duration) := by
  constructor
  · simp [leaseStatement, keyParameters]
  · simp only [leaseStatement, keyParameters, List.forall_mem_append, List.forall_mem_cons]
    refine ⟨⟨.named ?_, .named ?_, .named ?_, ?_⟩, .event, .owner, .acquired, .expires, ?_⟩
    all_goals simp [named]

end OutboxTables

end MeridianPostgreSQL.Projection
