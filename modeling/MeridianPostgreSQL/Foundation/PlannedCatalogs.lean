import MeridianPostgreSQL.Foundation.Catalogs

/-! # Planned catalogs

When idempotent statements make every relation that they name. A statement
whose name is taken does nothing, so this is a matter of names: each of them
fits, and each is asked for one relation. -/

namespace MeridianPostgreSQL.Catalogs

/-! ## Plans -/

/-- What a statement asks for. A table comes with its key. -/
def Statement.relations : Statement → List (String × Relation)
  | .createTable name columns primary =>
      [(name, .table columns primary),
        (primaryName name 0, .index ⟨name, .btree, true, primary⟩)]
  | .createIndex name index => [(name, .index index)]
  | _ => []

def planned (statements : List Statement) : List (String × Relation) :=
  statements.flatMap Statement.relations

/-- No name is asked for two relations. -/
def Consistent (relations : List (String × Relation)) : Prop :=
  ∀ entry ∈ relations, ∀ other ∈ relations, entry.1 = other.1 → entry.2 = other.2

/-- What a statement needs of those before it: a table for a column or an
index. -/
def Statement.Follows (earlier : List Statement) : Statement → Prop
  | .createTable _ columns primary => (columns.map Column.name).Nodup ∧
      primary ⊆ columns.map Column.name ∧ ∀ column ∈ columns, Fits column.name
  | .addColumn table column _ => ∃ columns primary,
      .createTable table columns primary ∈ earlier ∧ column ∈ columns
  | .createIndex _ index => (∃ columns primary,
      .createTable index.table columns primary ∈ earlier ∧
        index.columns ⊆ columns.map Column.name) ∧
      (index.method = .hash → index.columns.length = 1)
  | .elsewhere _ => True

theorem Statement.Follows.mono {earlier later : List Statement} {statement : Statement}
    (follows : statement.Follows earlier) (more : earlier ⊆ later) : statement.Follows later := by
  cases statement with
  | createTable name columns primary => exact follows
  | addColumn table column defaulted =>
      obtain ⟨columns, primary, created, listed⟩ := follows
      exact ⟨columns, primary, more created, listed⟩
  | createIndex name index =>
      obtain ⟨⟨columns, primary, created, listed⟩, single⟩ := follows
      exact ⟨⟨columns, primary, more created, listed⟩, single⟩
  | elsewhere text => trivial

theorem Consistent.mono {relations fewer : List (String × Relation)}
    (consistent : Consistent relations) (contained : fewer ⊆ relations) : Consistent fewer :=
  fun entry listed other inside => consistent entry (contained listed) other (contained inside)

theorem planned_append (first second : List Statement) :
    planned (first ++ second) = planned first ++ planned second := List.flatMap_append

theorem mem_planned {statements : List Statement} {statement : Statement}
    {entry : String × Relation} (inside : statement ∈ statements)
    (asked : entry ∈ statement.relations) : entry ∈ planned statements :=
  List.mem_flatMap.mpr ⟨statement, inside, asked⟩

theorem mem_planned_table {statements : List Statement} {name : String} {columns : List Column}
    {primary : List String} (listed : (name, .table columns primary) ∈ planned statements) :
    .createTable name columns primary ∈ statements := by
  obtain ⟨statement, inside, asked⟩ := List.mem_flatMap.mp listed
  cases statement with
  | createTable other otherColumns otherPrimary =>
      rcases List.mem_cons.mp asked with same | last
      · cases same
        exact inside
      · cases List.mem_singleton.mp last
  | createIndex other index => cases List.mem_singleton.mp asked
  | addColumn table column defaulted => cases asked
  | elsewhere text => cases asked

/-! ## Statements that change nothing -/

namespace Catalog

variable {catalog : Catalog}

theorem truncated_of_find (sound : catalog.Sound) {name : String} {relation : Relation}
    (found : catalog.find name = some relation) : truncated name = name :=
  truncated_eq (sound.fit name (mem_names_of_find found))

theorem map_truncated {names : List String} (fit : ∀ name ∈ names, Fits name) :
    names.map truncated = names := by
  calc names.map truncated = names.map id :=
        List.map_congr_left fun name listed => truncated_eq (fit name listed)
    _ = names := List.map_id names

theorem map_column_truncated {columns : List Column} (fit : ∀ column ∈ columns, Fits column.name) :
    columns.map Column.truncated = columns := by
  have each : ∀ column ∈ columns, column.truncated = id column := by
    intro column listed
    rw [Column.truncated, truncated_eq (fit column listed)]
    rfl
  rw [List.map_congr_left each, List.map_id]

/-! ## Steps -/

/-- A catalog holds all that statements asked for, and nothing else. -/
structure Reflects (catalog : Catalog) (earlier : List Statement) : Prop where
  sound : catalog.Sound
  realises : ∀ entry ∈ planned earlier, catalog.find entry.1 = some entry.2
  asked : ∀ entry ∈ catalog.relations, entry ∈ planned earlier

theorem reflects_empty : Reflects .empty [] :=
  ⟨sound_empty, List.forall_mem_nil _, List.forall_mem_nil _⟩

section Steps

variable {earlier : List Statement} {statement : Statement}

theorem Reflects.table (reflects : catalog.Reflects earlier) {name : String}
    {columns : List Column} {primary : List String}
    (created : .createTable name columns primary ∈ earlier) :
    catalog.find name = some (.table columns primary) :=
  reflects.realises _ (mem_planned created List.mem_cons_self)

/-- A name that is taken already names the relation that is asked for. -/
theorem Reflects.taken (reflects : catalog.Reflects earlier)
    (consistent : Consistent (planned (earlier ++ [statement]))) {entry : String × Relation}
    (listed : entry ∈ statement.relations) {relation : Relation}
    (found : catalog.find entry.1 = some relation) : relation = entry.2 := by
  rw [planned_append] at consistent
  have held := reflects.asked _ (mem_of_find found)
  have asked := mem_planned (List.mem_singleton_self statement) listed
  exact consistent _ (List.mem_append_left _ held) entry (List.mem_append_right _ asked) rfl

/-- A statement that asks for nothing new changes nothing. -/
theorem Reflects.same (reflects : catalog.Reflects earlier)
    (held : ∀ entry ∈ statement.relations, catalog.find entry.1 = some entry.2) :
    catalog.Reflects (earlier ++ [statement]) := by
  refine ⟨reflects.sound, ?_, ?_⟩
  · intro entry listed
    rw [planned_append, List.mem_append] at listed
    rcases listed with before | new
    · exact reflects.realises entry before
    · rw [planned, List.flatMap_singleton] at new
      exact held entry new
  · intro entry listed
    rw [planned_append]
    exact List.mem_append_left _ (reflects.asked entry listed)

theorem Reflects.extends (reflects : catalog.Reflects earlier)
    (sound : Sound { catalog with relations := catalog.relations ++ statement.relations }) :
    Reflects { catalog with relations := catalog.relations ++ statement.relations }
      (earlier ++ [statement]) := by
  have asked : planned (earlier ++ [statement]) = planned earlier ++ statement.relations := by
    rw [planned_append, planned, planned, List.flatMap_singleton]
  refine ⟨sound, ?_, ?_⟩
  · intro entry listed
    rw [asked] at listed
    apply find_of_mem sound.apart
    rcases List.mem_append.mp listed with before | new
    · exact List.mem_append_left _ (mem_of_find (reflects.realises entry before))
    · exact List.mem_append_right _ new
  · intro entry listed
    rw [asked]
    rcases List.mem_append.mp listed with before | new
    · exact List.mem_append_left _ (reflects.asked entry before)
    · exact List.mem_append_right _ new

/-- The key of a new table gets the name that PostgreSQL tries first. -/
theorem Reflects.key (reflects : catalog.Reflects earlier) {name : String}
    {columns : List Column} {primary : List String} (free : catalog.find name = none)
    (consistent : Consistent (planned (earlier ++ [.createTable name columns primary]))) :
    choosePrimary (name :: catalog.names) name = some (primaryName name 0) := by
  apply choosePrimary_first
  rw [List.mem_cons, not_or]
  have asked := fun {entry} => @mem_planned _ _ entry (List.mem_append_right earlier
    (List.mem_singleton_self (Statement.createTable name columns primary)))
  constructor
  · intro same
    cases consistent _ (asked List.mem_cons_self) _
      (asked (List.mem_cons_of_mem _ List.mem_cons_self)) same.symm
  · intro listed
    cases found : catalog.find (primaryName name 0) with
    | none => exact find_eq_none.mp found listed
    | some relation =>
        have index := reflects.taken consistent (List.mem_cons_of_mem _ List.mem_cons_self) found
        subst index
        exact find_eq_none.mp free (reflects.sound.indexed (mem_of_find found))

theorem Reflects.createTable (reflects : catalog.Reflects earlier) {name : String}
    {columns : List Column} {primary : List String}
    (follows : Statement.Follows earlier (.createTable name columns primary))
    (consistent : Consistent (planned (earlier ++ [.createTable name columns primary])))
    (fits : Fits name) :
    ∃ next, catalog.perform (.createTable name columns primary) = some next ∧
      next.Reflects (earlier ++ [.createTable name columns primary]) := by
  obtain ⟨distinct, contained, fit⟩ := follows
  have keyFit : ∀ column ∈ primary, Fits column := by
    intro column listed
    obtain ⟨original, inside, rfl⟩ := List.mem_map.mp (contained listed)
    exact fit original inside
  rw [perform, truncated_eq fits, map_column_truncated fit, map_truncated keyFit]
  cases found : catalog.find name with
  | some relation =>
      have same := reflects.taken consistent List.mem_cons_self found
      subst same
      refine ⟨catalog, by rw [Catalog.createTable, found], reflects.same ?_⟩
      have created := mem_planned_table (reflects.asked _ (mem_of_find found))
      intro entry listed
      exact reflects.realises entry (mem_planned created listed)
  | none =>
      have key := reflects.key found consistent
      have valid : ¬ (¬ (columns.map Column.name).Nodup ∨
          ¬ primary ⊆ columns.map Column.name) := by
        rw [not_or, not_not, not_not]
        exact ⟨distinct, contained⟩
      have made : catalog.createTable name columns primary = some { catalog with
          relations := catalog.relations ++
            (Statement.createTable name columns primary).relations } := by
        rw [Catalog.createTable, found]
        dsimp only
        rw [if_neg valid, key]
        rfl
      exact ⟨_, made, reflects.extends (reflects.sound.createTable fits fit made)⟩

theorem Reflects.addColumn (reflects : catalog.Reflects earlier) {table : String}
    {column : Column} {defaulted : Bool}
    (follows : Statement.Follows earlier (.addColumn table column defaulted)) :
    ∃ next, catalog.perform (.addColumn table column defaulted) = some next ∧
      next.Reflects (earlier ++ [.addColumn table column defaulted]) := by
  obtain ⟨columns, primary, created, listed⟩ := follows
  have found := reflects.table created
  have fits := (reflects.sound.columns (mem_of_find found)).2 column listed
  refine ⟨catalog, ?_, reflects.same (List.forall_mem_nil _)⟩
  rw [perform, truncated_of_find reflects.sound found, Column.truncated, truncated_eq fits,
    Catalog.addColumn, found]
  exact if_pos (List.mem_map_of_mem listed)

theorem Reflects.createIndex (reflects : catalog.Reflects earlier) {name : String} {index : Index}
    (follows : Statement.Follows earlier (.createIndex name index))
    (consistent : Consistent (planned (earlier ++ [.createIndex name index])))
    (fits : Fits name) :
    ∃ next, catalog.perform (.createIndex name index) = some next ∧
      next.Reflects (earlier ++ [.createIndex name index]) := by
  obtain ⟨⟨columns, primary, created, contained⟩, single⟩ := follows
  have held := reflects.table created
  have columnFit : ∀ column ∈ index.columns, Fits column := by
    intro column listed
    obtain ⟨original, inside, rfl⟩ := List.mem_map.mp (contained listed)
    exact (reflects.sound.columns (mem_of_find held)).2 original inside
  have whole : index.truncated = index := by
    rw [Index.truncated, truncated_of_find reflects.sound held, map_truncated columnFit]
  have valid : ¬ (¬ index.columns ⊆ columns.map Column.name ∨
      index.method = .hash ∧ index.columns.length ≠ 1) := by
    rw [not_or, not_and, not_not, not_not]
    exact ⟨contained, single⟩
  rw [perform, truncated_eq fits, whole]
  cases found : catalog.find name with
  | some relation =>
      have same := reflects.taken consistent (List.mem_singleton_self _) found
      subst same
      refine ⟨catalog, ?_, reflects.same ?_⟩
      · rw [Catalog.createIndex, held]
        dsimp only
        rw [if_neg valid, found]
      · intro entry listed
        rw [List.mem_singleton.mp listed]
        exact found
  | none =>
      have made : catalog.createIndex name index = some { catalog with
          relations := catalog.relations ++ (Statement.createIndex name index).relations } := by
        rw [Catalog.createIndex, held]
        dsimp only
        rw [if_neg valid, found]
        rfl
      exact ⟨_, made, reflects.extends (reflects.sound.createIndex fits made)⟩

/-- A statement with what it needs, whose names fit and are asked for nothing
else, leaves all that was asked for so far. -/
theorem Reflects.step (reflects : catalog.Reflects earlier)
    (follows : statement.Follows earlier)
    (consistent : Consistent (planned (earlier ++ [statement])))
    (fit : ∀ entry ∈ statement.relations, Fits entry.1) :
    ∃ next, catalog.perform statement = some next ∧ next.Reflects (earlier ++ [statement]) := by
  cases statement with
  | createTable name columns primary =>
      exact reflects.createTable follows consistent (fit _ List.mem_cons_self)
  | addColumn table column defaulted => exact reflects.addColumn follows
  | createIndex name index =>
      exact reflects.createIndex follows consistent (fit _ List.mem_cons_self)
  | elsewhere text => exact ⟨catalog, rfl, reflects.same (List.forall_mem_nil _)⟩

end Steps

/-- What a catalog holds under their names are single relations. -/
theorem consistent_of_find {relations : List (String × Relation)}
    (realised : ∀ entry ∈ relations, catalog.find entry.1 = some entry.2) :
    Consistent relations := by
  intro entry listed other inside same
  have here := realised entry listed
  rw [same, realised other inside] at here
  exact (Option.some.inj here).symm

end Catalog

end MeridianPostgreSQL.Catalogs
