import MeridianPostgreSQL.Foundation.Catalogs

/-! # Growing catalogs

Idempotent statements only add to a catalog: tables keep their columns and
keys, and indexes stay. So a statement that has been performed is settled from
then on, and performing it again changes nothing. -/

namespace MeridianPostgreSQL.Catalogs

/-! ## Growth -/

/-- What a relation may become. -/
inductive Relation.Grows : Relation → Relation → Prop
  | table {columns added : List Column} {primary : List String} :
      Grows (.table columns primary) (.table (columns ++ added) primary)
  | index {index : Index} : Grows (.index index) (.index index)

theorem Relation.Grows.refl (relation : Relation) : relation.Grows relation := by
  cases relation with
  | table columns primary =>
      have whole := @Relation.Grows.table columns [] primary
      rwa [List.append_nil] at whole
  | index index => exact .index

theorem Relation.Grows.trans {first second third : Relation} (before : first.Grows second)
    (after : second.Grows third) : first.Grows third := by
  cases before with
  | table =>
      cases after with
      | table =>
          rw [List.append_assoc]
          exact .table
  | index =>
      cases after with
      | index => exact .index

namespace Catalog

/-- Every relation is still there, and has at most grown. -/
def Extends (before after : Catalog) : Prop :=
  ∀ name relation, before.find name = some relation →
    ∃ grown, after.find name = some grown ∧ relation.Grows grown

theorem Extends.refl (catalog : Catalog) : catalog.Extends catalog :=
  fun _ relation found => ⟨relation, found, .refl relation⟩

theorem Extends.trans {first second third : Catalog} (before : first.Extends second)
    (after : second.Extends third) : first.Extends third := by
  intro name relation found
  obtain ⟨middle, held, grown⟩ := before name relation found
  obtain ⟨last, kept, more⟩ := after name middle held
  exact ⟨last, kept, grown.trans more⟩

section Steps

variable {catalog next : Catalog} {refuses : Catalog → Statement → Bool}
  {statement : Statement} {statements : List Statement}

theorem extends_added {entries : List (String × Relation)} :
    catalog.Extends { catalog with relations := catalog.relations ++ entries } := by
  intro name relation found
  refine ⟨relation, ?_, .refl relation⟩
  rw [find_added, show catalog.find name = some relation from found, Option.some_or]

theorem Extends.table {table : String} {columns : List Column} {primary : List String}
    (grows : catalog.Extends next) (found : catalog.find table = some (.table columns primary)) :
    ∃ more, next.find table = some (.table (columns ++ more) primary) := by
  obtain ⟨grown, held, kind⟩ := grows table _ found
  cases kind with
  | table => exact ⟨_, held⟩

theorem Extends.taken {name : String} (grows : catalog.Extends next)
    (taken : (catalog.find name).isSome = true) : (next.find name).isSome = true := by
  obtain ⟨relation, found⟩ := Option.isSome_iff_exists.mp taken
  obtain ⟨grown, held, _⟩ := grows name relation found
  rw [held]
  rfl

theorem perform_extends (performed : catalog.perform statement = some next) :
    catalog.Extends next := by
  cases statement with
  | createTable name columns primary =>
      rcases createTable_cases performed with ⟨_, _, rfl⟩ | ⟨_, _, _, _, _, rfl⟩
      · exact .refl _
      · exact extends_added
  | addColumn table column defaulted =>
      rcases addColumn_cases performed with ⟨columns, primary, found, ⟨_, rfl⟩ | ⟨_, rfl⟩⟩
      · exact .refl _
      · intro name relation held
        rw [find_replace, held, Option.map_some]
        by_cases same : name = truncated table
        · rw [if_pos same]
          rw [same, found] at held
          cases held
          exact ⟨_, rfl, .table⟩
        · rw [if_neg same]
          exact ⟨relation, rfl, .refl relation⟩
  | createIndex name index =>
      rcases createIndex_cases performed with ⟨_, _, _, _, ⟨_, _, rfl⟩ | ⟨_, rfl⟩⟩
      · exact .refl _
      · exact extends_added
  | elsewhere text =>
      cases performed
      exact .refl _

/-! ## Settled statements -/

/-- What a performed statement asked for is there. -/
def Settled (catalog : Catalog) : Statement → Prop
  | .createTable name _ _ => (catalog.find (truncated name)).isSome = true
  | .addColumn table column _ => ∃ columns primary,
      catalog.find (truncated table) = some (.table columns primary) ∧
        truncated column.name ∈ columns.map Column.name
  | .createIndex name index => (catalog.find (truncated name)).isSome = true ∧
      ∃ columns primary, catalog.find (truncated index.table) = some (.table columns primary) ∧
        index.columns.map truncated ⊆ columns.map Column.name ∧
        (index.method = .hash → (index.columns.map truncated).length = 1)
  | .elsewhere _ => True

theorem Settled.mono (settled : catalog.Settled statement) (grows : catalog.Extends next) :
    next.Settled statement := by
  cases statement with
  | createTable name columns primary => exact grows.taken settled
  | addColumn table column defaulted =>
      obtain ⟨columns, primary, found, listed⟩ := settled
      obtain ⟨more, held⟩ := grows.table found
      refine ⟨_, primary, held, ?_⟩
      rw [List.map_append]
      exact List.mem_append_left _ listed
  | createIndex name index =>
      obtain ⟨taken, columns, primary, found, contained, single⟩ := settled
      obtain ⟨more, held⟩ := grows.table found
      refine ⟨grows.taken taken, _, primary, held, ?_, single⟩
      rw [List.map_append]
      exact List.Subset.trans contained (List.subset_append_left _ _)
  | elsewhere text => trivial

theorem createIndex_contained {name : String} {index : Index} {columns : List Column}
    {primary : List String} (created : catalog.createIndex name index = some next)
    (found : catalog.find index.table = some (.table columns primary)) :
    index.columns ⊆ columns.map Column.name := by
  unfold createIndex at created
  rw [found] at created
  dsimp only at created
  split at created
  · cases created
  · rename_i valid
    rw [not_or, not_not] at valid
    exact valid.1

theorem perform_settled (performed : catalog.perform statement = some next) :
    next.Settled statement := by
  have grows := perform_extends performed
  cases statement with
  | createTable name columns primary =>
      rcases createTable_cases performed with ⟨_, found, rfl⟩ | ⟨free, _, _, _, _, rfl⟩
      · exact Option.isSome_of_eq_some found
      · rw [Settled, find_added, free]
        simp [find]
  | addColumn table column defaulted =>
      rcases addColumn_cases performed with ⟨columns, primary, found, ⟨present, rfl⟩ | ⟨_, rfl⟩⟩
      · exact ⟨columns, primary, found, present⟩
      · refine ⟨columns ++ [column.truncated], primary, ?_, ?_⟩
        · rw [find_replace, found, Option.map_some, if_pos rfl]
        · rw [List.map_append]
          exact List.mem_append_right _ (List.mem_singleton_self _)
  | createIndex name index =>
      obtain ⟨columns, primary, found, single, taken⟩ := createIndex_cases performed
      have contained := createIndex_contained performed found
      obtain ⟨more, held⟩ := grows.table found
      have listed : index.columns.map truncated ⊆ (columns ++ more).map Column.name := by
        rw [List.map_append]
        exact List.Subset.trans contained (List.subset_append_left _ _)
      refine ⟨?_, _, primary, held, listed, single⟩
      rcases taken with ⟨_, present, rfl⟩ | ⟨free, rfl⟩
      · exact Option.isSome_of_eq_some present
      · rw [find_added, free]
        simp [find]
  | elsewhere text => trivial

/-- A settled statement changes nothing, whatever rows there are. -/
theorem perform_again (settled : catalog.Settled statement) :
    catalog.perform statement = some catalog := by
  cases statement with
  | createTable name columns primary =>
      obtain ⟨relation, found⟩ := Option.isSome_iff_exists.mp settled
      rw [perform, createTable, found]
  | addColumn table column defaulted =>
      obtain ⟨columns, primary, found, listed⟩ := settled
      rw [perform, addColumn, found]
      exact if_pos listed
  | createIndex name index =>
      obtain ⟨taken, columns, primary, found, contained, single⟩ := settled
      obtain ⟨relation, held⟩ := Option.isSome_iff_exists.mp taken
      have valid : ¬ (¬ index.truncated.columns ⊆ columns.map Column.name ∨
          index.truncated.method = .hash ∧ index.truncated.columns.length ≠ 1) := by
        rw [not_or, not_and, not_not, not_not]
        exact ⟨contained, single⟩
      have table : catalog.find index.truncated.table = some (.table columns primary) := found
      rw [perform, createIndex, table]
      dsimp only
      rw [if_neg valid, held]
  | elsewhere text => rfl

end Steps

end Catalog

end MeridianPostgreSQL.Catalogs
