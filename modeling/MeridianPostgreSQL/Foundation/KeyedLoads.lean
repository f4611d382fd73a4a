import Mathlib.Data.List.Basic
import Mathlib.Data.List.Nodup
import Mathlib.Logic.Function.Basic

/-! # Keyed loads

Rows that are put one after another into tables with keys, all or none: a row
whose key is taken is merged into the row that is there. -/

namespace MeridianPostgreSQL.KeyedLoads

/-- Tables at places: the key of a row, what a new row makes of one that has its
key, and the constraints of a table, which a table keeps when its last rows are
taken away. To merge a row again changes nothing. -/
structure Tables (Place Row Key : Type) where
  key : Place → Row → Key
  merge : Place → Row → Row → Row
  fits : Place → List Row → Bool
  key_merge : ∀ {place new old}, key place old = key place new →
    key place (merge place new old) = key place new
  merge_self : ∀ place row, merge place row row = row
  merge_merge : ∀ place new old, merge place new (merge place new old) = merge place new old
  fits_left : ∀ {place rows more}, fits place (rows ++ more) = true → fits place rows = true

/-! ## One row -/

section Placed

variable {Place Row Key : Type} [DecidableEq Key]

/-- A row whose key is free is added, and another is merged. -/
def placed (tables : Tables Place Row Key) (place : Place) (rows : List Row) (row : Row) :
    List Row :=
  if tables.key place row ∈ rows.map (tables.key place) then
    rows.map fun other =>
      if tables.key place other = tables.key place row then tables.merge place row other else other
  else rows ++ [row]

variable {tables : Tables Place Row Key} {place : Place} {rows : List Row} {row : Row}

theorem placed_free
    (free : ∀ other ∈ rows, tables.key place other ≠ tables.key place row) :
    placed tables place rows row = rows ++ [row] := by
  rw [placed, if_neg]
  intro taken
  obtain ⟨other, listed, same⟩ := List.mem_map.mp taken
  exact free other listed same

theorem length_placed_le : (placed tables place rows row).length ≤ rows.length + 1 := by
  unfold placed
  split <;> simp

/-- A table that has grown has the row at its end. -/
theorem placed_grown
    (grown : rows.length < (placed tables place rows row).length) :
    placed tables place rows row = rows ++ [row] := by
  unfold placed at grown ⊢
  split at grown
  · simp at grown
  · rename_i free
    rw [if_neg free]

/-- A row under the key: what the new row has made. -/
theorem merge_of_mem_placed {other : Row} (listed : other ∈ placed tables place rows row)
    (same : tables.key place other = tables.key place row) : tables.merge place row other = other := by
  unfold placed at listed
  split at listed
  · obtain ⟨old, inside, rfl⟩ := List.mem_map.mp listed
    by_cases taken : tables.key place old = tables.key place row
    · rw [if_pos taken]
      exact tables.merge_merge place row old
    · rw [if_neg taken] at same
      exact absurd same taken
  · rename_i free
    rcases List.mem_append.mp listed with inside | last
    · exact absurd (List.mem_map.mpr ⟨other, inside, same⟩) free
    · rw [List.mem_singleton.mp last]
      exact tables.merge_self place row

theorem key_mem_placed :
    ∃ other ∈ placed tables place rows row, tables.key place other = tables.key place row := by
  unfold placed
  split
  · rename_i taken
    obtain ⟨old, inside, same⟩ := List.mem_map.mp taken
    exact ⟨_, List.mem_map.mpr ⟨old, inside, if_pos same⟩, tables.key_merge same⟩
  · exact ⟨row, List.mem_append_right _ (List.mem_singleton.mpr rfl), rfl⟩

/-- The rows under other keys stay. -/
theorem mem_placed_iff {other : Row} (different : tables.key place other ≠ tables.key place row) :
    other ∈ placed tables place rows row ↔ other ∈ rows := by
  unfold placed
  split
  · rw [List.mem_map]
    constructor
    · rintro ⟨old, inside, rfl⟩
      by_cases taken : tables.key place old = tables.key place row
      · rw [if_pos taken] at different
        exact absurd (tables.key_merge taken) different
      · rwa [if_neg taken]
    · intro inside
      exact ⟨other, inside, if_neg different⟩
  · rw [List.mem_append, List.mem_singleton, or_iff_left]
    rintro rfl
    exact different rfl

/-- The rows that their keys tell from the new one stay. -/
theorem filter_placed {inside : Row → Bool}
    (keyed : ∀ {first second}, tables.key place first = tables.key place second →
      inside first = inside second) (new : inside row = true) :
    (placed tables place rows row).filter (fun other => !inside other) =
      rows.filter fun other => !inside other := by
  unfold placed
  split
  · rename_i taken
    clear taken
    induction rows with
    | nil => rfl
    | cons other rest induction =>
        rw [List.map_cons, List.filter_cons, List.filter_cons, induction]
        by_cases same : tables.key place other = tables.key place row
        · rw [if_pos same, keyed (tables.key_merge same), keyed same, new]
          simp
        · rw [if_neg same]
  · simp [new]

end Placed

/-! ## Related lists -/

section Related

variable {α β : Type} {related : α → β → Prop} {left : List α} {right : List β}

theorem exists_related (pairs : List.Forall₂ related left right) :
    ∀ item ∈ left, ∃ other ∈ right, related item other := by
  induction pairs with
  | nil => exact List.forall_mem_nil _
  | @cons item other _ _ head _ induction =>
      rw [List.forall_mem_cons]
      refine ⟨⟨other, List.mem_cons_self, head⟩, ?_⟩
      intro another listed
      obtain ⟨found, inside, held⟩ := induction another listed
      exact ⟨found, List.mem_cons_of_mem _ inside, held⟩

/-- What tells the items of one list apart tells the related ones apart. -/
theorem pairwise_related {apart : α → α → Prop} {distinct : β → β → Prop}
    (pairs : List.Forall₂ related left right)
    (reflects : ∀ {first second other another}, related first other → related second another →
      distinct other another → apart first second)
    (held : right.Pairwise distinct) : left.Pairwise apart := by
  induction pairs with
  | nil => exact .nil
  | cons head tail induction =>
      obtain ⟨first, rest⟩ := List.pairwise_cons.mp held
      refine List.pairwise_cons.mpr ⟨?_, induction rest⟩
      intro item listed
      obtain ⟨other, inside, same⟩ := exists_related tail item listed
      exact reflects head same (first other inside)

theorem related_mem (pairs : List.Forall₂ related left right) :
    List.Forall₂ (fun item other => related item other ∧ item ∈ left ∧ other ∈ right)
      left right := by
  induction pairs with
  | nil => exact .nil
  | cons head _ induction =>
      refine .cons ⟨head, List.mem_cons_self, List.mem_cons_self⟩ (induction.imp ?_)
      rintro item other ⟨held, first, second⟩
      exact ⟨held, List.mem_cons_of_mem _ first, List.mem_cons_of_mem _ second⟩

theorem related_trans {γ : Type} {next : β → γ → Prop} {last : List γ}
    (pairs : List.Forall₂ related left right) (others : List.Forall₂ next right last) :
    List.Forall₂ (fun item third => ∃ second, related item second ∧ next second third)
      left last := by
  induction pairs generalizing last with
  | nil =>
      cases others
      exact .nil
  | cons head _ induction =>
      cases others with
      | cons second rest => exact .cons ⟨_, head, second⟩ (induction rest)

theorem mapM_some_iff {f : α → Option β} :
    left.mapM f = some right ↔ List.Forall₂ (fun item result => f item = some result) left right := by
  induction left generalizing right with
  | nil => simp [eq_comm]
  | cons first rest induction =>
      rw [List.mapM_cons, List.forall₂_cons_left_iff]
      simp only [Option.bind_eq_bind, Option.bind_eq_some_iff, induction, Option.pure_def,
        Option.some.injEq]
      constructor
      · rintro ⟨result, head, results, tail, rfl⟩
        exact ⟨result, results, head, tail, rfl⟩
      · rintro ⟨result, results, head, tail, rfl⟩
        exact ⟨result, head, results, tail, rfl⟩

theorem mapM_some_exists {f : α → Option β} (each : ∀ item ∈ left, ∃ result, f item = some result) :
    ∃ results, left.mapM f = some results := by
  induction left with
  | nil => exact ⟨[], rfl⟩
  | cons first rest induction =>
      obtain ⟨⟨result, head⟩, tail⟩ := List.forall_mem_cons.mp each
      obtain ⟨results, found⟩ := induction tail
      exact ⟨result :: results, mapM_some_iff.mpr (.cons head (mapM_some_iff.mp found))⟩

end Related

/-! ## Loads -/

section Loads

variable {Place Row Key : Type} [DecidableEq Place] [DecidableEq Key]

variable (tables : Tables Place Row Key)

/-- One row, unless it breaks a constraint. -/
def put (database : Place → List Row) (item : Place × Row) : Option (Place → List Row) :=
  let next := placed tables item.1 (database item.1) item.2
  if tables.fits item.1 next then some (Function.update database item.1 next) else none

/-- All the rows in order, or none. -/
def load (database : Place → List Row) (items : List (Place × Row)) :
    Option (Place → List Row) :=
  items.foldlM (put tables) database

/-- The rows that are for a place. -/
def rowsAt (items : List (Place × Row)) (place : Place) : List Row :=
  (items.filter fun item => item.1 = place).map Prod.snd

/-- The tables with rows added at their ends. -/
def appended (database : Place → List Row) (items : List (Place × Row)) : Place → List Row :=
  fun place => database place ++ rowsAt items place

variable {tables} {database after : Place → List Row} {items : List (Place × Row)}

theorem put_eq_some {item : Place × Row} : put tables database item = some after ↔
    tables.fits item.1 (placed tables item.1 (database item.1) item.2) = true ∧
      Function.update database item.1 (placed tables item.1 (database item.1) item.2) =
        after := by
  simp [put]

omit [DecidableEq Key] in
@[simp] theorem appended_nil :
    appended database ([] : List (Place × Row)) = database := by
  funext place
  simp [appended, rowsAt]

omit [DecidableEq Key] in
/-- The rows of the first item go before the others. -/
theorem appended_cons (item : Place × Row) : appended database (item :: items) =
    appended (Function.update database item.1 (database item.1 ++ [item.2])) items := by
  funext place
  by_cases same : item.1 = place
  · subst same
    simp [appended, rowsAt]
  · simp [appended, rowsAt, same, Function.update_of_ne (Ne.symm same)]

/-! ## Rows of places -/

omit [DecidableEq Key] in
/-- The rows of places that are listed once, place by place. -/
theorem rowsAt_flatMap {places : List Place} (distinct : places.Nodup) (rows : Place → List Row)
    (place : Place) : rowsAt (places.flatMap fun other => (rows other).map fun row => (other, row))
      place = if place ∈ places then rows place else [] := by
  induction places with
  | nil => rfl
  | cons first rest induction =>
      obtain ⟨new, distinct⟩ := List.nodup_cons.mp distinct
      have later := induction distinct
      unfold rowsAt at later ⊢
      rw [List.flatMap_cons, List.filter_append, List.map_append, later]
      by_cases same : first = place
      · subst same
        simp [new, List.filter_map, Function.comp_def]
      · simp [List.filter_map, Function.comp_def, same, Ne.symm same]

omit [DecidableEq Key] in
theorem rowsAt_related {Other : Type} {related : Place → Row → Other → Prop}
    {others : List (Place × Other)}
    (pairs : List.Forall₂ (fun item other => item.1 = other.1 ∧ related item.1 item.2 other.2)
      items others) (place : Place) :
    List.Forall₂ (related place) (rowsAt items place) (rowsAt others place) := by
  induction pairs with
  | nil => exact .nil
  | @cons item other _ _ head _ induction =>
      obtain ⟨same, held⟩ := head
      unfold rowsAt at induction ⊢
      by_cases here : item.1 = place
      · subst here
        rw [List.filter_cons_of_pos (by simp), List.filter_cons_of_pos (by simp [← same])]
        exact .cons held induction
      · rw [List.filter_cons_of_neg (by simp [here]),
          List.filter_cons_of_neg (by simp [← same, here])]
        exact induction

/-! ## Whole loads -/

theorem load_cons {item : Place × Row} :
    load tables database (item :: items) = some after ↔
      ∃ next, put tables database item = some next ∧ load tables next items = some after := by
  rw [load, List.foldlM_cons, Option.bind_eq_bind, Option.bind_eq_some_iff]
  rfl

theorem length_rowsAt_cons (item : Place × Row) (place : Place) :
    (rowsAt (item :: items) place).length =
      (if item.1 = place then 1 else 0) + (rowsAt items place).length := by
  by_cases same : item.1 = place <;> simp [rowsAt, same, Nat.add_comm]

theorem length_load_le (loaded : load tables database items = some after) (place : Place) :
    (after place).length ≤ (database place).length + (rowsAt items place).length := by
  induction items generalizing database with
  | nil =>
      cases loaded
      exact Nat.le_add_right _ _
  | cons item rest induction =>
      obtain ⟨next, first, loaded⟩ := load_cons.mp loaded
      obtain ⟨_, rfl⟩ := put_eq_some.mp first
      have later := induction loaded
      rw [length_rowsAt_cons]
      by_cases same : item.1 = place
      · subst same
        have grown : (placed tables item.1 (database item.1) item.2).length ≤
            (database item.1).length + 1 := length_placed_le
        rw [Function.update_self] at later
        simp only [if_true]
        omega
      · rw [Function.update_of_ne (Ne.symm same)] at later
        simpa [same] using later

/-- A load that adds as many rows as it has adds these rows. -/
theorem load_appended (loaded : load tables database items = some after)
    (grown : ∀ place,
      (after place).length = (database place).length + (rowsAt items place).length) :
    after = appended database items := by
  induction items generalizing database with
  | nil =>
      cases loaded
      rw [appended_nil]
  | cons item rest induction =>
      obtain ⟨next, first, loaded⟩ := load_cons.mp loaded
      obtain ⟨_, rfl⟩ := put_eq_some.mp first
      have bound := length_load_le loaded item.1
      have size := grown item.1
      rw [length_rowsAt_cons, if_pos rfl] at size
      rw [Function.update_self] at bound
      have added : placed tables item.1 (database item.1) item.2 =
          database item.1 ++ [item.2] := placed_grown (by omega)
      rw [added] at loaded
      rw [appended_cons]
      apply induction loaded
      intro place
      rw [grown place, length_rowsAt_cons]
      by_cases same : item.1 = place
      · subst same
        rw [Function.update_self, List.length_append, if_pos rfl]
        simp only [List.length_singleton]
        omega
      · rw [Function.update_of_ne (Ne.symm same), if_neg same, Nat.zero_add]

/-- No new row has the key of another one or of a row that is there. -/
structure Fresh (tables : Tables Place Row Key) (database : Place → List Row)
    (items : List (Place × Row)) : Prop where
  distinct : (items.map fun item => (item.1, tables.key item.1 item.2)).Nodup
  free : ∀ item ∈ items, ∀ other ∈ database item.1,
    tables.key item.1 other ≠ tables.key item.1 item.2

/-- Rows with new keys are added, where the tables with all of them keep the
constraints. -/
theorem load_fresh (fresh : Fresh tables database items)
    (fits : ∀ item ∈ items, tables.fits item.1 (appended database items item.1) = true) :
    load tables database items = some (appended database items) := by
  induction items generalizing database with
  | nil =>
      rw [appended_nil]
      rfl
  | cons item rest induction =>
      have added : placed tables item.1 (database item.1) item.2 =
          database item.1 ++ [item.2] :=
        placed_free (fresh.free item List.mem_cons_self)
      have kept : tables.fits item.1 (database item.1 ++ [item.2]) = true := by
        have whole := fits item List.mem_cons_self
        rw [appended_cons, appended, Function.update_self] at whole
        exact tables.fits_left whole
      have distinct := List.nodup_cons.mp fresh.distinct
      rw [load_cons]
      refine ⟨Function.update database item.1 (database item.1 ++ [item.2]), ?_, ?_⟩
      · rw [put_eq_some, added]
        exact ⟨kept, rfl⟩
      · rw [appended_cons]
        apply induction
        · refine ⟨distinct.2, ?_⟩
          intro other listed held inside
          by_cases same : other.1 = item.1
          · rw [same, Function.update_self, List.mem_append, List.mem_singleton] at inside
            rcases inside with inside | rfl
            · have free := fresh.free other (List.mem_cons_of_mem _ listed)
              rw [same] at free ⊢
              exact free held inside
            · intro equal
              apply distinct.1
              rw [List.mem_map]
              exact ⟨other, listed, by rw [← equal, same]⟩
          · rw [Function.update_of_ne same] at inside
            exact fresh.free other (List.mem_cons_of_mem _ listed) held inside
        · intro other listed
          have whole := fits other (List.mem_cons_of_mem _ listed)
          rwa [appended_cons] at whole

/-! ## Rows elsewhere -/

/-- Rows that their keys tell from the new ones stay. -/
theorem load_outside {inside : Place → Row → Bool}
    (keyed : ∀ {place first second}, tables.key place first = tables.key place second →
      inside place first = inside place second)
    (loaded : load tables database items = some after)
    (new : ∀ item ∈ items, inside item.1 item.2 = true) (place : Place) :
    (after place).filter (fun row => !inside place row) =
      (database place).filter fun row => !inside place row := by
  induction items generalizing database with
  | nil =>
      cases loaded
      rfl
  | cons item rest induction =>
      obtain ⟨next, done, loaded⟩ := load_cons.mp loaded
      obtain ⟨_, rfl⟩ := put_eq_some.mp done
      obtain ⟨first, others⟩ := List.forall_mem_cons.mp new
      rw [induction loaded others]
      by_cases same : item.1 = place
      · subst same
        rw [Function.update_self]
        exact filter_placed keyed first
      · rw [Function.update_of_ne (Ne.symm same)]

/-! ## Loads again -/

/-- A row is as the tables have it. -/
structure Loaded (tables : Tables Place Row Key) (database : Place → List Row)
    (item : Place × Row) : Prop where
  present : ∃ other ∈ database item.1, tables.key item.1 other = tables.key item.1 item.2
  merged : ∀ other ∈ database item.1, tables.key item.1 other = tables.key item.1 item.2 →
    tables.merge item.1 item.2 other = other
  fits : tables.fits item.1 (database item.1) = true

variable {item other : Place × Row} {next : Place → List Row}

theorem loaded_put (done : put tables database item = some next) : Loaded tables next item := by
  obtain ⟨fits, rfl⟩ := put_eq_some.mp done
  constructor
  · rw [Function.update_self]
    exact key_mem_placed
  · rw [Function.update_self]
    exact fun _ listed same => merge_of_mem_placed listed same
  · rwa [Function.update_self]

/-- A row under another key changes nothing of it. -/
theorem Loaded.after_put (held : Loaded tables database item)
    (done : put tables database other = some next)
    (different : (item.1, tables.key item.1 item.2) ≠ (other.1, tables.key other.1 other.2)) :
    Loaded tables next item := by
  obtain ⟨fits, rfl⟩ := put_eq_some.mp done
  rcases item with ⟨place, row⟩
  rcases other with ⟨elsewhere, another⟩
  by_cases same : place = elsewhere
  · subst same
    have keys : tables.key place row ≠ tables.key place another := by
      simpa using different
    have stays : ∀ old, tables.key place old = tables.key place row →
        (old ∈ placed tables place (database place) another ↔ old ∈ database place) := by
      intro old same
      exact mem_placed_iff (same ▸ keys)
    constructor
    · obtain ⟨old, inside, same⟩ := held.present
      rw [Function.update_self]
      exact ⟨old, (stays old same).mpr inside, same⟩
    · intro old inside same
      rw [Function.update_self] at inside
      exact held.merged old ((stays old same).mp inside) same
    · rwa [Function.update_self]
  · have untouched : Function.update database elsewhere
        (placed tables elsewhere (database elsewhere) another) place = database place :=
      Function.update_of_ne same _ _
    constructor
    · rw [untouched]
      exact held.present
    · rw [untouched]
      exact held.merged
    · rw [untouched]
      exact held.fits

theorem Loaded.after_load (held : Loaded tables database item)
    (loaded : load tables database items = some after)
    (different : (item.1, tables.key item.1 item.2) ∉
      items.map fun other => (other.1, tables.key other.1 other.2)) :
    Loaded tables after item := by
  induction items generalizing database with
  | nil =>
      cases loaded
      exact held
  | cons first rest induction =>
      obtain ⟨next, done, loaded⟩ := load_cons.mp loaded
      rw [List.map_cons, List.mem_cons, not_or] at different
      exact induction (held.after_put done different.1) loaded different.2

theorem loaded_of_load (loaded : load tables database items = some after)
    (distinct : (items.map fun item => (item.1, tables.key item.1 item.2)).Nodup) :
    ∀ item ∈ items, Loaded tables after item := by
  induction items generalizing database with
  | nil => exact List.forall_mem_nil _
  | cons first rest induction =>
      obtain ⟨next, done, loaded⟩ := load_cons.mp loaded
      obtain ⟨new, distinct⟩ := List.nodup_cons.mp distinct
      rw [List.forall_mem_cons]
      exact ⟨(loaded_put done).after_load loaded new, induction loaded distinct⟩

theorem Loaded.put_eq (held : Loaded tables database item) :
    put tables database item = some database := by
  have kept : placed tables item.1 (database item.1) item.2 = database item.1 := by
    rw [placed, if_pos (List.mem_map.mpr held.present)]
    conv_rhs => rw [← List.map_id (database item.1)]
    apply List.map_congr_left
    intro other listed
    split
    · exact held.merged other listed ‹_›
    · rfl
  rw [put_eq_some, kept]
  exact ⟨held.fits, Function.update_eq_self _ _⟩

/-- Rows with keys of their own are loaded again without effect. -/
theorem load_again (loaded : load tables database items = some after)
    (distinct : (items.map fun item => (item.1, tables.key item.1 item.2)).Nodup) :
    load tables after items = some after := by
  have held := loaded_of_load loaded distinct
  clear loaded distinct
  induction items with
  | nil => rfl
  | cons first rest induction =>
      rw [List.forall_mem_cons] at held
      rw [load_cons]
      exact ⟨after, held.1.put_eq, induction held.2⟩

end Loads

end MeridianPostgreSQL.KeyedLoads
