import Mathlib.Data.List.Nodup
import MeridianPostgreSQL.Foundation.TransactionContracts

/-! # Insert-only transactions

Transactions that add rows and never change a committed one. What such a
transaction has added stays exact whatever other transactions add. -/

namespace MeridianPostgreSQL.ReadCommitted

variable {Key : Type} {Row : Key → Type} {Result : Type}

/-- Every row of `before` is still there. -/
def Extends (before after : Store Row) : Prop :=
  ∀ key row, before key = some row → after key = some row

theorem Extends.refl (store : Store Row) : Extends store store :=
  fun _ _ found => found

theorem Extends.trans {first second third : Store Row}
    (left : Extends first second) (right : Extends second third) :
    Extends first third :=
  fun key row found => right key row (left key row found)

/-- A row with its key. -/
abbrev Entry {Key : Type} (Row : Key → Type) := (key : Key) × Row key

/-- `after` holds the rows of `before` and the entries, and nothing else. -/
structure Installed (entries : List (Entry Row)) (before after : Store Row) : Prop
    where
  rows : ∀ key row, after key = some row ↔
    before key = some row ∨ ⟨key, row⟩ ∈ entries
  fresh : ∀ entry ∈ entries, before entry.1 = none
  distinct : (entries.map Sigma.fst).Nodup

namespace Installed

variable {entries more : List (Entry Row)} {before middle after : Store Row}

theorem nil (store : Store Row) : Installed [] store store where
  rows := fun key row => by simp
  fresh := fun _ absent => nomatch absent
  distinct := .nil

theorem extension (installed : Installed entries before after) : Extends before after :=
  fun key row found => (installed.rows key row).mpr (.inl found)

theorem mem (installed : Installed entries before after) {entry : Entry Row}
    (member : entry ∈ entries) : after entry.1 = some entry.2 :=
  (installed.rows entry.1 entry.2).mpr (.inr member)

theorem present (installed : Installed entries before after) {key : Key}
    (member : key ∈ entries.map Sigma.fst) : after key ≠ none := by
  rcases List.mem_map.mp member with ⟨entry, listed, rfl⟩
  simp [installed.mem listed]

theorem absent (installed : Installed entries before after) {key : Key}
    (member : key ∈ entries.map Sigma.fst) : before key = none := by
  rcases List.mem_map.mp member with ⟨entry, listed, rfl⟩
  exact installed.fresh entry listed

/-- More entries over more rows show at least what was shown before. -/
theorem grown {store later : Store Row}
    (installed : Installed entries before after)
    (larger : Installed (entries ++ more) store later)
    (extension : Extends before store) : Extends after later := by
  intro key row found
  rw [installed.rows] at found
  rw [larger.rows]
  rcases found with kept | listed
  · exact .inl (extension key row kept)
  · exact .inr (List.mem_append_left more listed)

theorem trans (first : Installed entries before middle)
    (second : Installed more middle after) :
    Installed (entries ++ more) before after where
  rows := by
    intro key row
    rw [second.rows, first.rows, List.mem_append, or_assoc]
  fresh := by
    intro entry member
    rcases List.mem_append.mp member with old | new
    · exact first.fresh entry old
    · by_contra present
      rcases Option.ne_none_iff_exists'.mp present with ⟨row, found⟩
      have kept := first.extension entry.1 row found
      rw [second.fresh entry new] at kept
      exact nomatch kept
  distinct := by
    rw [List.map_append]
    refine first.distinct.append second.distinct ?_
    exact fun key old new => first.present old (second.absent new)

variable [DecidableEq Key]

/-- One more row under a key that is still free. -/
theorem single {store : Store Row} {key : Key} (absent : store key = none)
    (row : Row key) :
    Installed [⟨key, row⟩] store (Function.update store key (some row)) where
  rows := by
    intro other found
    by_cases same : other = key
    · subst other
      simp [absent, eq_comm]
    · simp [same]
  fresh := by
    intro entry member
    cases List.mem_singleton.mp member
    exact absent
  distinct := List.nodup_singleton key

/-- The row of one entry may be replaced. -/
theorem replace {key : Key} {old : Row key}
    (installed : Installed (entries ++ ⟨key, old⟩ :: more) before after)
    (new : Row key) :
    Installed (entries ++ ⟨key, new⟩ :: more) before
      (Function.update after key (some new)) where
  rows := by
    have distinct := installed.distinct
    rw [List.map_append, List.map_cons] at distinct
    have unlisted : ∀ row, (⟨key, row⟩ : Entry Row) ∉ entries ∧
        (⟨key, row⟩ : Entry Row) ∉ more := by
      intro row
      rcases List.nodup_append.mp distinct with ⟨_, tail, apart⟩
      constructor
      · intro member
        exact apart key (List.mem_map.mpr ⟨_, member, rfl⟩) key (.head _) rfl
      · intro member
        exact (List.nodup_cons.mp tail).1 (List.mem_map.mpr ⟨_, member, rfl⟩)
    have missing : before key = none := installed.absent (by simp)
    intro other row
    by_cases same : other = key
    · subst other
      simp [missing, unlisted, eq_comm]
    · rw [Function.update_of_ne same, installed.rows]
      simp [same]
  fresh := by
    intro entry member
    apply installed.absent
    have listed := List.mem_map_of_mem (f := Sigma.fst) member
    simpa using listed
  distinct := by simpa using installed.distinct

end Installed

/-! ## Transactions -/

/-- The transaction has added the entries over the committed rows, and holds a
lock on each. -/
structure Installs (entries : List (Entry Row)) (workspace : Workspace Row)
    (store : Store Row) : Prop where
  installed : Installed entries store (overlay workspace.writes store)
  locked : ∀ entry ∈ entries, entry.1 ∈ workspace.locks
  written : ∀ key, workspace.writes key ≠ none → key ∈ entries.map Sigma.fst

namespace Installs

variable {entries more : List (Entry Row)} {workspace : Workspace Row}
  {store later : Store Row}

theorem fresh (store : Store Row) : Installs [] (.fresh : Workspace Row) store where
  installed := .nil store
  locked := fun _ absent => nomatch absent
  written := fun _ written => absurd rfl written

/-- An entry is among the writes of the transaction. -/
theorem writes_eq (installs : Installs entries workspace store) {entry : Entry Row}
    (member : entry ∈ entries) :
    workspace.writes entry.1 = some (some entry.2) := by
  have shown := installs.installed.mem member
  cases found : workspace.writes entry.1 with
  | none =>
      rw [overlay_of_unwritten found, installs.installed.fresh entry member] at shown
      exact nomatch shown
  | some row =>
      rw [overlay, found] at shown
      exact congrArg some shown

/-- What other transactions add leaves the entries exact. -/
theorem interfered (installs : Installs entries workspace store)
    (kept : ∀ key ∈ workspace.locks, later key = store key) :
    Installs entries workspace later where
  installed := by
    have fresh : ∀ entry ∈ entries, later entry.1 = none := fun entry member =>
      (kept entry.1 (installs.locked entry member)).trans
        (installs.installed.fresh entry member)
    refine ⟨fun key row => ?_, fresh, installs.installed.distinct⟩
    cases found : workspace.writes key with
    | none =>
        rw [overlay_of_unwritten found]
        have unlisted : (⟨key, row⟩ : Entry Row) ∉ entries := by
          intro member
          have written := installs.writes_eq member
          rw [found] at written
          cases written
        simp [unlisted]
    | some change =>
        have listed := installs.written key (by simp [found])
        rcases List.mem_map.mp listed with ⟨entry, member, rfl⟩
        rw [overlay, installs.writes_eq member, fresh entry member]
        constructor
        · intro equal
          refine .inr ?_
          cases equal
          exact member
        · rintro (absent | other)
          · cases absent
          · have second := installs.writes_eq other
            rw [installs.writes_eq member] at second
            exact Option.some.inj second
  locked := installs.locked
  written := installs.written

variable [DecidableEq Key]

/-- Insert a row where the transaction sees none. -/
theorem insert (installs : Installs entries workspace store) {key : Key}
    (absent : overlay workspace.writes store key = none) (row : Row key) :
    Installs (entries ++ [⟨key, row⟩]) (workspace.record key (.put row)) store where
  installed := by
    rw [Workspace.overlay_record_put]
    exact installs.installed.trans (.single absent row)
  locked := by
    intro entry member
    rcases List.mem_append.mp member with old | new
    · exact Set.mem_insert_of_mem key (installs.locked entry old)
    · cases List.mem_singleton.mp new
      exact Set.mem_insert key workspace.locks
  written := by
    intro other written
    rw [List.map_append, List.mem_append]
    by_cases same : other = key
    · exact .inr (by simp [same])
    · rw [Workspace.record_put_writes, Function.update_of_ne same] at written
      exact .inl (installs.written other written)

/-- Replace a row the transaction added. -/
theorem replace {key : Key} {old : Row key}
    (installs : Installs (entries ++ ⟨key, old⟩ :: more) workspace store)
    (new : Row key) :
    Installs (entries ++ ⟨key, new⟩ :: more) (workspace.record key (.put new))
      store where
  installed := by
    rw [Workspace.overlay_record_put]
    exact installs.installed.replace new
  locked := by
    intro entry member
    have listed : entry.1 ∈ (entries ++ ⟨key, old⟩ :: more).map Sigma.fst := by
      have mapped := List.mem_map_of_mem (f := Sigma.fst) member
      simpa using mapped
    rcases List.mem_map.mp listed with ⟨other, otherMember, same⟩
    rw [← same]
    exact Set.mem_insert_of_mem key (installs.locked other otherMember)
  written := by
    intro other written
    have listed : other ∈ (entries ++ ⟨key, old⟩ :: more).map Sigma.fst := by
      by_cases same : other = key
      · simp [same]
      · rw [Workspace.record_put_writes, Function.update_of_ne same] at written
        exact installs.written other written
    simpa using listed

end Installs

end MeridianPostgreSQL.ReadCommitted
