import MeridianPostgreSQL.Query.IdentityConditions
import MeridianPostgreSQL.Query.RecordVersions

/-! # Running a put

How a put ends: the server runs its statement against the primary key and the
unique indexes of the table, and the session makes a conflict of an update that
meets no record and of a duplicate key. -/

namespace MeridianPostgreSQL.Query

open Settings
open VersionedRecords

/-! ## Server -/

/-- PostgreSQL behind its driver. Values that an index holds equal are one. -/
structure PutServer (Value : Type) extends Engine Value where
  /-- What a bound value stands for beside a column, unless the driver or the
  server refuses it there. -/
  read : String → Json → Option Value
  /-- The column takes the bound value. -/
  storable : String → DMLStatement → Bool
  /-- A value of the condition is refused. -/
  refuses : DMLStatement → Bool
  /-- The value can stand beside the version column. -/
  readsVersion : Json → Bool
  /-- The unique indexes other than the primary key hold of the rows. -/
  unique : Table Value → Bool

/-- How a statement ends. -/
inductive Reply (Value : Type) where
  | completed (after : Table Value) (returned : List (Record Value))
  | duplicate
  | refused

namespace PutServer

variable {Value : Type} [DecidableEq Value] (server : PutServer Value) (keys : List String)

def settle (after : Table Value) (returned : List (Record Value)) : Reply Value :=
  if server.unique after then .completed after returned else .duplicate

def stores (values : List (String × DMLStatement)) : Bool :=
  values.all fun value => server.storable value.1 value.2

/-- An insertion of a record, over one of the same key if it says how. -/
def insertRow (new : Record Value) (upsert : Option (List String × List String))
    (table : Table Value) : Reply Value :=
  match recordAt keys table (recordKey keys new), upsert with
  | none, _ => server.settle (table ++ [new]) [new]
  | some _, none => .duplicate
  | some old, some (_, taken) =>
      server.settle (table.map fun record =>
          if recordKey keys record = recordKey keys new then upserted taken new record
          else record)
        [upserted taken new old]

/-- The statements of a put. The others are not run here. -/
def perform (mutation : Mutation) (table : Table Value) : Reply Value :=
  match mutation with
  | .insert columns values upsert =>
      if server.stores (columns.zip values) = false ∨
          (upsert.any fun clause => clause.1 ≠ keys) = true then .refused
      else server.insertRow keys (insertedRecord server.toEngine columns values) upsert table
  | .replace assignments condition =>
      if server.refuses condition = true ∨ server.stores assignments = false then .refused
      else
        server.settle (table.map fun record =>
            if server.holds condition record then
              replaced server.toEngine assignments record
            else record)
          ((table.filter (server.holds condition)).map (replaced server.toEngine assignments))
  | .update assignments condition expected =>
      if server.refuses condition = true ∨ server.stores assignments = false ∨
          expected.all server.readsVersion = false then .refused
      else
        server.settle (table.map fun record =>
            if required server.toEngine condition expected record then
              advanced server.toEngine assignments record
            else record)
          ((table.filter (required server.toEngine condition expected)).map
            (advanced server.toEngine assignments))
  | _ => .refused

end PutServer

/-! ## Outcomes -/

/-- What a caller sees, with the table that is left. A refusal is an error
that is not a conflict. -/
inductive PutOutcome (Value : Type) where
  | returned (record : Option (Record Value)) (after : Table Value)
  | conflict
  | refused

/-- `_execute_dml` -/
def Reply.outcome {Value : Type} (conditional : Bool) : Reply Value → PutOutcome Value
  | .completed after returned =>
      if conditional = true ∧ returned.isEmpty = true then .conflict
      else .returned returned.head? after
  | .duplicate => .conflict
  | .refused => .refused

/-- A put with an expected version or in mode `update` needs a record. -/
def isConditional (input : Json.Object) : Bool :=
  (member input "expectedVersion").isSome ||
    Json.get input "mode" = some (.string "update")

/-- A put from its input to its outcome. -/
def runPut {Value : Type} [DecidableEq Value] (server : PutServer Value)
    (compiler : DMLCompiler) (layout : ResourceLayout) (context : OperationContext)
    (input : Json.Object) (table : Table Value) : PutOutcome Value :=
  match compiler.putMutation layout context input with
  | .error _ => .refused
  | .ok mutation =>
      (server.perform (primaryKey compiler.settings layout) mutation table).outcome
        (isConditional input)

/-! ## Rows -/

section Rows

variable {Value : Type} [DecidableEq Value] {server : PutServer Value} {keys : List String}
  {table after : Table Value} {returned : List (Record Value)}

omit [DecidableEq Value] in
theorem settle_completed {rows : List (Record Value)}
    (settled : server.settle after returned = .completed table rows) :
    after = table ∧ returned = rows ∧ server.unique after = true := by
  unfold PutServer.settle at settled
  split at settled
  · cases settled
    exact ⟨rfl, rfl, ‹_›⟩
  · exact nomatch settled

/-- A statement that is completed is a run of it. -/
theorem perform_runs {mutation : Mutation}
    (completed : server.perform keys mutation table = .completed after returned) :
    Runs server.toEngine keys mutation table after := by
  unfold PutServer.perform at completed
  split at completed
  · rename_i columns values upsert
    split at completed
    · exact nomatch completed
    · rename_i accepted
      unfold PutServer.insertRow at completed
      split at completed
      · rename_i absent
        obtain ⟨rfl, _, _⟩ := settle_completed completed
        apply Runs.insert
        intro record listed same
        have missing := List.find?_eq_none.mp absent record listed
        simp [same] at missing
      · exact nomatch completed
      · rename_i old clauseKeys taken present
        obtain ⟨rfl, _, _⟩ := settle_completed completed
        have arbiter : clauseKeys = keys := by
          rw [not_or] at accepted
          simpa using accepted.2
        subst arbiter
        apply Runs.upsert
        have same := List.find?_some present
        exact ⟨old, List.mem_of_find?_eq_some present, by simpa using same⟩
  · split at completed
    · exact nomatch completed
    · obtain ⟨rfl, _, _⟩ := settle_completed completed
      exact .replace
  · split at completed
    · exact nomatch completed
    · obtain ⟨rfl, _, _⟩ := settle_completed completed
      exact .update
  · exact nomatch completed

end Rows

end MeridianPostgreSQL.Query
