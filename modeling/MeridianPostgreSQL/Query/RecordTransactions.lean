import Mathlib.Data.List.Perm.Subperm
import MeridianPostgreSQL.Foundation.ReplayedTransactions
import MeridianPostgreSQL.Query.RecordVersions

/-! # Record transactions

The writing statements row by row, in transactions of many clients at once.
PostgreSQL finds the records of a statement, waits for each and tests it again
as it then is; a claim passes over the records that others have locked. A record
that was deleted and created again meanwhile is tested here as the new one,
which the server passes over. -/

namespace MeridianPostgreSQL.Query

open Settings
open ReadCommitted

/-! ## Row by row -/

/-- Every row of the table is a record. -/
abbrev RecordRow (Value : Type) : List Value → Type := fun _ => Record Value

section Rows

variable {Value : Type} [DecidableEq Value] (engine : Engine Value) (keys : List String)

/-- The keys of the records that a statement finds, or would insert. -/
def Mutation.finds (store : Store (RecordRow Value)) (key : List Value) : Mutation → Bool
  | .insert columns values _ =>
      decide (recordKey keys (insertedRecord engine columns values) = key)
  | .update _ condition expected => (store key).any (required engine condition expected)
  | .replace _ condition => (store key).any (engine.holds condition)
  | .delete condition expected => (store key).any (required engine condition expected)
  | .claim _ _ condition _ => (store key).any (engine.holds condition)
  | .importRow columns values _ _ _ =>
      decide (recordKey keys (insertedRecord engine columns values) = key)

/-- What a statement does to the record at a key that it has found. -/
def Mutation.change (row : Option (Record Value)) : Mutation → Change (Record Value)
  | .insert columns values upsert =>
      match row, upsert with
      | none, _ => .put (insertedRecord engine columns values)
      | some record, some (_, taken) =>
          .put (upserted taken (insertedRecord engine columns values) record)
      | some _, none => .keep
  | .update assignments condition expected =>
      match row with
      | some record =>
          if required engine condition expected record then
            .put (advanced engine assignments record)
          else .keep
      | none => .keep
  | .replace assignments condition =>
      match row with
      | some record =>
          if engine.holds condition record then .put (replaced engine assignments record)
          else .keep
      | none => .keep
  | .delete condition expected =>
      match row with
      | some record => if required engine condition expected record then .delete else .keep
      | none => .keep
  | .claim assignments _ condition _ =>
      match row with
      | some record =>
          if engine.holds condition record then .put (advanced engine assignments record)
          else .keep
      | none => .keep
  | .importRow columns values _ taken _ =>
      match row with
      | none => .put (insertedRecord engine columns values)
      | some record => .put (imported taken (insertedRecord engine columns values) record)

def Mutation.limit : Mutation → Option Nat
  | .claim _ _ _ limit => some limit
  | _ => none

/-- An insertion is refused at a key that is taken. -/
def Mutation.strict : Mutation → Bool
  | .insert _ _ none => true
  | _ => false

def Mutation.rowStatement (mutation : Mutation) : RowStatement (RecordRow Value) where
  finds := fun store key => mutation.finds engine keys store key
  change := fun _ row => mutation.change engine row
  limit := mutation.limit
  strict := mutation.strict

end Rows

/-! ## A statement that runs alone -/

section Alone

variable {Value : Type} [DecidableEq Value] {keys : List String} {table : Table Value}
  {statement : RowStatement (RecordRow Value)}

/-- The records that a statement changes, each found under its key. -/
def touches (keys : List String) (made : Record Value → Change (Record Value))
    (records : List (Record Value)) : List (Touch (RecordRow Value)) :=
  records.map fun record => ⟨recordKey keys record, made record⟩

omit [DecidableEq Value] in
theorem keys_touches (made : Record Value → Change (Record Value))
    (records : List (Record Value)) :
    (touches keys made records).map Touch.key = records.map (recordKey keys) := by
  simp [touches]

/-- A statement that makes a change to the chosen records and to no others. -/
theorem performs_chosen {made : Record Value → Change (Record Value)}
    {chosen : Record Value → Prop}
    [DecidablePred chosen] {after : Store (RecordRow Value)} (keyed : Keyed keys table)
    (changes : ∀ record ∈ table, chosen record →
      statement.change (recordKey keys record) (some record) = made record ∧
        (made record).keeps = false ∧
        statement.finds (recordAt keys table) (recordKey keys record) = true ∧
        after (recordKey keys record) = (made record).outcome (some record))
    (bounded : ∀ limit, statement.limit = some limit →
      (table.filter (chosen ·)).length ≤ limit)
    (others : ∀ key, (∀ record, recordAt keys table key = some record → ¬ chosen record) →
      after key = recordAt keys table key) :
    Performs statement (touches keys made (table.filter (chosen ·))) (recordAt keys table)
      after := by
  have each : ∀ touch ∈ touches keys made (table.filter (chosen ·)), ∃ record ∈ table,
      chosen record ∧ touch = ⟨recordKey keys record, made record⟩ := by
    intro touch member
    rcases List.mem_map.mp member with ⟨record, listed, rfl⟩
    rcases List.mem_filter.mp listed with ⟨inside, picked⟩
    exact ⟨record, inside, of_decide_eq_true picked, rfl⟩
  refine ⟨⟨?_, ?_, ?_⟩, ?_, ?_, ?_⟩
  · intro touch member
    rcases each touch member with ⟨record, inside, picked, rfl⟩
    rcases changes record inside picked with ⟨change, real, _, _⟩
    exact ⟨by rw [recordAt_of_mem keyed inside, change], real⟩
  · intro touch member
    rcases each touch member with ⟨record, inside, picked, rfl⟩
    rw [(changes record inside picked).2.2.2, recordAt_of_mem keyed inside]
  · intro key absent
    apply others
    intro record found
    have inside := List.mem_of_find?_eq_some found
    have named := List.find?_some found
    rw [decide_eq_true_eq] at named
    intro picked
    rw [keys_touches] at absent
    exact absent (named ▸ List.mem_map_of_mem
      (List.mem_filter.mpr ⟨inside, decide_eq_true picked⟩))
  · rw [keys_touches]
    exact keyed.sublist (List.filter_sublist.map _)
  · intro limit limited
    rw [touches, List.length_map]
    exact bounded limit limited
  · intro touch member
    rcases each touch member with ⟨record, inside, picked, rfl⟩
    exact ⟨_, (changes record inside picked).2.2.1⟩

/-- The chosen records are updated. -/
theorem performs_map {update : Record Value → Record Value} {chosen : Record Value → Prop}
    [DecidablePred chosen] (keyed : Keyed keys table)
    (kept : ∀ record ∈ table, recordKey keys (update record) = recordKey keys record)
    (changes : ∀ record ∈ table, chosen record →
      statement.change (recordKey keys record) (some record) = .put (update record) ∧
        statement.finds (recordAt keys table) (recordKey keys record) = true)
    (bounded : ∀ limit, statement.limit = some limit → (table.filter (chosen ·)).length ≤ limit) :
    Performs statement
      (touches keys (fun record => .put (update record)) (table.filter (chosen ·)))
      (recordAt keys table)
      (recordAt keys (table.map fun record => if chosen record then update record else record)) := by
  have stays : ∀ record ∈ table,
      recordKey keys (if chosen record then update record else record) =
        recordKey keys record := by
    intro record inside
    split
    · exact kept record inside
    · rfl
  refine performs_chosen keyed ?_ bounded ?_
  · intro record inside picked
    rcases changes record inside picked with ⟨change, found⟩
    refine ⟨change, rfl, found, ?_⟩
    rw [recordAt_map stays, recordAt_of_mem keyed inside, Option.map_some, if_pos picked]
    rfl
  · intro key spared
    rw [recordAt_map stays]
    cases found : recordAt keys table key with
    | none => rfl
    | some record => simp [spared record found]

theorem recordAt_filter {keep : Record Value → Bool} (keyed : Keyed keys table)
    (key : List Value) :
    recordAt keys (table.filter keep) key = (recordAt keys table key).filter keep := by
  have rest : Keyed keys (table.filter keep) := keyed.sublist (List.filter_sublist.map _)
  cases later : recordAt keys (table.filter keep) key with
  | some record =>
      rcases List.mem_filter.mp (List.mem_of_find?_eq_some later) with ⟨inside, kept⟩
      have named := List.find?_some later
      rw [decide_eq_true_eq] at named
      rw [← named, recordAt_of_mem keyed inside, Option.filter_some_pos kept]
  | none =>
      cases found : recordAt keys table key with
      | none => rfl
      | some record =>
          cases kept : keep record with
          | false => rw [Option.filter_some_neg kept]
          | true =>
              have named := List.find?_some found
              rw [decide_eq_true_eq] at named
              have member := List.mem_filter.mpr ⟨List.mem_of_find?_eq_some found, kept⟩
              rw [← named, recordAt_of_mem rest member] at later
              cases later

/-- The chosen records are removed. -/
theorem performs_delete {chosen : Record Value → Bool} (keyed : Keyed keys table)
    (changes : ∀ record ∈ table, chosen record = true →
      statement.change (recordKey keys record) (some record) = .delete ∧
        statement.finds (recordAt keys table) (recordKey keys record) = true)
    (bounded : ∀ limit, statement.limit = some limit →
      (table.filter (chosen · = true)).length ≤ limit) :
    Performs statement (touches keys (fun _ => .delete) (table.filter (chosen · = true)))
      (recordAt keys table) (recordAt keys (table.filter fun record => !chosen record)) := by
  refine performs_chosen keyed ?_ bounded ?_
  · intro record inside picked
    rcases changes record inside picked with ⟨change, found⟩
    refine ⟨change, rfl, found, ?_⟩
    rw [recordAt_filter keyed, recordAt_of_mem keyed inside]
    simp [picked, Change.outcome]
  · intro key spared
    rw [recordAt_filter keyed]
    cases found : recordAt keys table key with
    | none => rfl
    | some record =>
        have kept := spared record found
        rw [Bool.not_eq_true] at kept
        simp [kept]

theorem performs_insert {record : Record Value}
    (absent : ∀ other ∈ table, recordKey keys other ≠ recordKey keys record)
    (change : statement.change (recordKey keys record) none = .put record)
    (found : statement.finds (recordAt keys table) (recordKey keys record) = true)
    (unlimited : statement.limit = none) :
    Performs statement [⟨recordKey keys record, .put record⟩] (recordAt keys table)
      (recordAt keys (table ++ [record])) := by
  have missing : recordAt keys table (recordKey keys record) = none := by
    unfold recordAt
    rw [List.find?_eq_none]
    intro other inside
    simpa using absent other inside
  have appended : ∀ key, recordAt keys (table ++ [record]) key =
      (recordAt keys table key).or (if recordKey keys record = key then some record else none) := by
    intro key
    unfold recordAt
    rw [List.find?_append, List.find?_singleton]
    simp
  refine ⟨⟨?_, ?_, ?_⟩, List.nodup_singleton _, ?_, ?_⟩
  · rw [List.forall_mem_singleton, missing, change]
    exact ⟨rfl, rfl⟩
  · rw [List.forall_mem_singleton, appended, missing]
    simp [Change.outcome]
  · intro key other
    rw [List.map_singleton, List.mem_singleton] at other
    rw [appended, if_neg fun same => other same.symm, Option.or_none]
  · intro limit limited
    rw [unlimited] at limited
    cases limited
  · rw [List.forall_mem_singleton]
    exact ⟨_, found⟩

end Alone

section Runs

variable {Value : Type} [DecidableEq Value] {engine : Engine Value}
  {settings : PostgreSQLSettings} {layout : ResourceLayout} {mutation : Mutation}
  {before after : Table Value}

/-- As many records are claimed as are chosen. -/
theorem claimed_length {keys : List String} {table chosen : List (Record Value)}
    (keyed : Keyed keys table) :
    (table.filter fun record =>
      decide (recordKey keys record ∈ chosen.map (recordKey keys))).length ≤ chosen.length := by
  have distinct : ((table.filter fun record =>
      decide (recordKey keys record ∈ chosen.map (recordKey keys))).map
        (recordKey keys)).Nodup := keyed.sublist (List.filter_sublist.map _)
  have inside : ((table.filter fun record =>
      decide (recordKey keys record ∈ chosen.map (recordKey keys))).map
        (recordKey keys)) ⊆ chosen.map (recordKey keys) := by
    intro key listed
    rcases List.mem_map.mp listed with ⟨record, member, rfl⟩
    exact of_decide_eq_true (List.mem_filter.mp member).2
  have shorter := (distinct.subperm inside).length_le
  rwa [List.length_map, List.length_map] at shorter

/-- A statement that changes a whole table is one that changes its rows. -/
theorem runs_performs (sound : mutation.Sound settings layout)
    (keyed : Keyed (primaryKey settings layout) before)
    (runs : Runs engine (primaryKey settings layout) mutation before after) :
    ∃ touched, Performs (mutation.rowStatement engine (primaryKey settings layout)) touched
      (recordAt (primaryKey settings layout) before)
      (recordAt (primaryKey settings layout) after) := by
  cases runs with
  | insert absent =>
      exact ⟨_, performs_insert absent rfl (decide_eq_true rfl) rfl⟩
  | importNew absent =>
      exact ⟨_, performs_insert absent rfl (decide_eq_true rfl) rfl⟩
  | upsert present =>
      refine ⟨_, performs_map keyed ?_ ?_ ?_⟩
      · exact fun record _ => upserted_key (sound _ _ rfl).2 _ record
      · exact fun record _ same => ⟨rfl, decide_eq_true same.symm⟩
      · rintro limit ⟨⟩
  | importOver present =>
      refine ⟨_, performs_map keyed ?_ ?_ ?_⟩
      · exact fun record _ => takenContents_key sound.2 _ record _
      · exact fun record _ same => ⟨rfl, decide_eq_true same.symm⟩
      · rintro limit ⟨⟩
  | update =>
      refine ⟨_, performs_map keyed ?_ ?_ ?_⟩
      · exact fun record _ => assignedContents_key sound record
      · intro record inside holds
        exact ⟨if_pos holds, by simp [Mutation.rowStatement, Mutation.finds,
          recordAt_of_mem keyed inside, holds]⟩
      · rintro limit ⟨⟩
  | replace =>
      refine ⟨_, performs_map keyed ?_ ?_ ?_⟩
      · exact fun record _ => replaced_key sound record
      · intro record inside holds
        exact ⟨if_pos holds, by simp [Mutation.rowStatement, Mutation.finds,
          recordAt_of_mem keyed inside, holds]⟩
      · rintro limit ⟨⟩
  | delete =>
      refine ⟨_, performs_delete keyed ?_ ?_⟩
      · intro record inside holds
        exact ⟨if_pos holds, by simp [Mutation.rowStatement, Mutation.finds,
          recordAt_of_mem keyed inside, holds]⟩
      · rintro limit ⟨⟩
  | claim eligible bounded =>
      rcases sound with ⟨rfl, outside⟩
      refine ⟨_, performs_map keyed ?_ ?_ ?_⟩
      · exact fun record _ => assignedContents_key outside record
      · intro record inside picked
        rcases List.mem_map.mp picked with ⟨other, listed, same⟩
        have equal := List.inj_on_of_nodup_map keyed (eligible other listed).1 inside same
        have holds := equal ▸ (eligible other listed).2
        exact ⟨if_pos holds, by simp [Mutation.rowStatement, Mutation.finds,
          recordAt_of_mem keyed inside, holds]⟩
      · rintro limit ⟨⟩
        exact (claimed_length keyed).trans bounded

end Runs

end MeridianPostgreSQL.Query
