import MeridianPostgreSQL.Foundation.VersionedRecords
import MeridianPostgreSQL.Query.Mutations

/-! # Records under mutations

What the emitted statements do to the rows of a table. The forms of the
statements are PostgreSQL's; how it evaluates the fragments inside them, the
bound values and the conditions, is left open. -/

namespace MeridianPostgreSQL.Query

open Settings
open VersionedRecords

/-- A row: the value of each column, and `__record_version`. -/
abbrev Record (Value : Type) := Versioned (String → Value)

abbrev Table (Value : Type) := List (Record Value)

/-- How PostgreSQL evaluates the fragments of a statement. -/
structure Engine (Value : Type) where
  null : Value
  store : String → DMLStatement → Value
  holds : DMLStatement → Record Value → Bool
  versionIs : Json → Int → Bool

section Statements

variable {Value : Type} (engine : Engine Value)

/-- The row of an insertion. The version is the default of its column. -/
def insertedRecord (columns : List String) (values : List DMLStatement) : Record Value where
  contents := fun column =>
    match (columns.zip values).lookup column with
    | some value => engine.store column value
    | none => engine.null
  version := 1

def assignedContents (assignments : List (String × DMLStatement)) (record : Record Value) :
    String → Value := fun column =>
  match assignments.lookup column with
  | some value => engine.store column value
  | none => record.contents column

def advanced (assignments : List (String × DMLStatement)) (record : Record Value) :
    Record Value :=
  ⟨assignedContents engine assignments record, record.version + 1⟩

/-- The columns that take the values of the excluded row. -/
def takenContents (columns : List String) (excluded record : Record Value) :
    String → Value := fun column =>
  if column ∈ columns then excluded.contents column else record.contents column

def upserted (columns : List String) (excluded record : Record Value) : Record Value :=
  if columns.isEmpty then record
  else ⟨takenContents columns excluded record, record.version + 1⟩

/-- An import takes the columns and leaves the version. -/
def imported (columns : List String) (excluded record : Record Value) : Record Value :=
  ⟨takenContents columns excluded record, record.version⟩

def replaced (assignments : List (String × DMLStatement)) (record : Record Value) :
    Record Value :=
  if assignments.isEmpty then record else advanced engine assignments record

def required (condition : DMLStatement) (expected : Option Json) (record : Record Value) :
    Bool :=
  engine.holds condition record &&
    expected.all fun version => engine.versionIs version record.version

def recordKey (keys : List String) (record : Record Value) : List Value :=
  keys.map record.contents

/-! ## Execution -/

variable [DecidableEq Value] (keys : List String)

/-- A statement that PostgreSQL completes, on a table with this primary key.
One that it refuses changes nothing. -/
inductive Runs : Mutation → Table Value → Table Value → Prop
  | insert {columns values upsert table}
      (absent : ∀ record ∈ table,
        recordKey keys record ≠ recordKey keys (insertedRecord engine columns values)) :
      Runs (.insert columns values upsert) table
        (table ++ [insertedRecord engine columns values])
  | upsert {columns values taken table}
      (present : ∃ record ∈ table,
        recordKey keys record = recordKey keys (insertedRecord engine columns values)) :
      Runs (.insert columns values (some (keys, taken))) table
        (table.map fun record =>
          if recordKey keys record = recordKey keys (insertedRecord engine columns values) then
            upserted taken (insertedRecord engine columns values) record
          else record)
  | update {assignments condition expected table} :
      Runs (.update assignments condition expected) table
        (table.map fun record =>
          if required engine condition expected record then advanced engine assignments record
          else record)
  | replace {assignments condition table} :
      Runs (.replace assignments condition) table
        (table.map fun record =>
          if engine.holds condition record then replaced engine assignments record else record)
  | delete {condition expected table} :
      Runs (.delete condition expected) table
        (table.filter fun record => !required engine condition expected record)
  | claim {assignments columns condition limit table} {chosen : List (Record Value)}
      (eligible : ∀ record ∈ chosen, record ∈ table ∧ engine.holds condition record = true)
      (bounded : chosen.length ≤ limit) :
      Runs (.claim assignments columns condition limit) table
        (table.map fun record =>
          if recordKey columns record ∈ chosen.map (recordKey columns) then
            advanced engine assignments record
          else record)
  | importNew {columns values taken first table}
      (absent : ∀ record ∈ table,
        recordKey keys record ≠ recordKey keys (insertedRecord engine columns values)) :
      Runs (.importRow columns values keys taken first) table
        (table ++ [insertedRecord engine columns values])
  | importOver {columns values taken first table}
      (present : ∃ record ∈ table,
        recordKey keys record = recordKey keys (insertedRecord engine columns values)) :
      Runs (.importRow columns values keys taken first) table
        (table.map fun record =>
          if recordKey keys record = recordKey keys (insertedRecord engine columns values) then
            imported taken (insertedRecord engine columns values) record
          else record)

/-! ## Rows by key -/

/-- The primary key tells the rows apart. -/
def Keyed (table : Table Value) : Prop := (table.map (recordKey keys)).Nodup

def recordAt (table : Table Value) (key : List Value) : Option (Record Value) :=
  table.find? fun record => recordKey keys record = key

/-- What may happen to each row: see `Step`. -/
def Disciplined (before after : Table Value) : Prop :=
  ∀ key, Step (recordAt keys before key) (recordAt keys after key)

end Statements

section Rows

variable {Value : Type} [DecidableEq Value] {keys : List String} {table : Table Value}

theorem recordAt_map {change : Record Value → Record Value}
    (kept : ∀ record ∈ table, recordKey keys (change record) = recordKey keys record)
    (key : List Value) :
    recordAt keys (table.map change) key = (recordAt keys table key).map change := by
  unfold recordAt
  induction table with
  | nil => rfl
  | cons record rest induction =>
      rw [List.map_cons, List.find?_cons, List.find?_cons, kept record List.mem_cons_self]
      cases decide (recordKey keys record = key) with
      | true => rfl
      | false => exact induction fun other listed => kept other (List.mem_cons_of_mem _ listed)

omit [DecidableEq Value] in
theorem keyed_map {change : Record Value → Record Value} (keyed : Keyed keys table)
    (kept : ∀ record ∈ table, recordKey keys (change record) = recordKey keys record) :
    Keyed keys (table.map change) := by
  have same : table.map (recordKey keys ∘ change) = table.map (recordKey keys) :=
    List.map_congr_left kept
  unfold Keyed
  rw [List.map_map, same]
  exact keyed

omit [DecidableEq Value] in
theorem keyed_append {record : Record Value} (keyed : Keyed keys table)
    (absent : ∀ other ∈ table, recordKey keys other ≠ recordKey keys record) :
    Keyed keys (table ++ [record]) := by
  unfold Keyed
  rw [List.map_append, List.map_singleton]
  apply keyed.append (List.nodup_singleton _)
  intro key inside last
  rw [List.mem_singleton] at last
  rcases List.mem_map.mp inside with ⟨other, listed, same⟩
  exact absent other listed (same.trans last)

theorem disciplined_map {change : Record Value → Record Value}
    (kept : ∀ record ∈ table, recordKey keys (change record) = recordKey keys record)
    (step : ∀ record ∈ table, Step (some record) (some (change record))) :
    Disciplined keys table (table.map change) := by
  intro key
  rw [recordAt_map kept]
  cases found : recordAt keys table key with
  | none => exact .keep
  | some record => exact step record (List.mem_of_find?_eq_some found)

theorem disciplined_append {record : Record Value}
    (absent : ∀ other ∈ table, recordKey keys other ≠ recordKey keys record)
    (first : record.version = 1) : Disciplined keys table (table ++ [record]) := by
  intro key
  unfold recordAt
  rw [List.find?_append]
  cases found : table.find? fun other => recordKey keys other = key with
  | some other => exact .keep
  | none =>
      rcases record with ⟨contents, version⟩
      cases first
      rw [Option.none_or, List.find?_cons, List.find?_nil]
      cases decide (recordKey keys ⟨contents, 1⟩ = key) with
      | true => exact .create
      | false => exact .keep

theorem recordAt_of_mem {record : Record Value} (keyed : Keyed keys table)
    (listed : record ∈ table) : recordAt keys table (recordKey keys record) = some record := by
  cases found : recordAt keys table (recordKey keys record) with
  | none =>
      have absent := List.find?_eq_none.mp found record listed
      simp at absent
  | some other =>
      have same := List.find?_some found
      simp only [decide_eq_true_eq] at same
      rw [List.inj_on_of_nodup_map keyed (List.mem_of_find?_eq_some found) listed same]

theorem disciplined_filter {keep : Record Value → Bool} (keyed : Keyed keys table) :
    Disciplined keys table (table.filter keep) := by
  intro key
  cases found : recordAt keys table key with
  | none =>
      have absent : recordAt keys (table.filter keep) key = none := by
        unfold recordAt at found ⊢
        rw [List.find?_eq_none] at found ⊢
        intro record listed
        exact found record (List.mem_filter.mp listed).1
      rw [absent]
      exact .keep
  | some record =>
      cases later : recordAt keys (table.filter keep) key with
      | none => exact .remove
      | some other =>
          unfold recordAt at found later
          have first := List.mem_of_find?_eq_some found
          have second := (List.mem_filter.mp (List.mem_of_find?_eq_some later)).1
          have same : other = record := by
            have keyOf := List.find?_some found
            have otherKey := List.find?_some later
            simp only [decide_eq_true_eq] at keyOf otherKey
            exact List.inj_on_of_nodup_map keyed second first (otherKey.trans keyOf.symm)
          rw [same]
          exact .keep

end Rows

end MeridianPostgreSQL.Query
