import Mathlib.Data.List.Nodup
import Mathlib.Data.List.Perm.Basic

/-! # Catalogs

The relations of one PostgreSQL schema under idempotent statements. Tables and
indexes share one namespace, names are cut to 63 bytes, and a statement whose
name is taken is skipped. -/

namespace MeridianPostgreSQL.Catalogs

/-- What PostgreSQL keeps of a name of one-byte characters. -/
def truncated (name : String) : String := String.ofList (name.toList.take 63)

def Fits (name : String) : Prop := name.toList.length ≤ 63

instance (name : String) : Decidable (Fits name) := inferInstanceAs (Decidable (_ ≤ _))

structure Column where
  name : String
  kind : String
  notNull : Bool
  generated : Bool
deriving DecidableEq

def Column.truncated (column : Column) : Column :=
  { column with name := Catalogs.truncated column.name }

inductive IndexMethod where
  | btree
  | hash
  | gist
  | gin
deriving DecidableEq

structure Index where
  table : String
  method : IndexMethod
  unique : Bool
  columns : List String
deriving DecidableEq

def Index.truncated (index : Index) : Index :=
  { index with
    table := Catalogs.truncated index.table
    columns := index.columns.map Catalogs.truncated }

inductive Relation where
  | table (columns : List Column) (primary : List String)
  | index (index : Index)
deriving DecidableEq

structure Catalog where
  relations : List (String × Relation)
  /-- The tables that hold rows. -/
  populated : List String

def Catalog.empty : Catalog := ⟨[], []⟩

inductive Statement where
  | createTable (name : String) (columns : List Column) (primary : List String)
  | addColumn (table : String) (column : Column) (defaulted : Bool)
  | createIndex (name : String) (index : Index)
  | elsewhere (text : String)
deriving DecidableEq

/-! ## Names -/

/-- The name of a primary key: the table is cut short for it, and a number
follows when the name is taken. -/
def primaryName (table : String) (number : Nat) : String :=
  let ending := if number = 0 then "_pkey" else "_pkey" ++ toString number
  String.ofList ((table.toList.take (63 - ending.length) ++ ending.toList).take 63)

def choosePrimary (taken : List String) (table : String) : Option String :=
  ((List.range (taken.length + 1)).map (primaryName table)).find? fun name => name ∉ taken

namespace Catalog

variable (catalog : Catalog)

def names : List String := catalog.relations.map Prod.fst

def find (name : String) : Option Relation :=
  (catalog.relations.find? fun entry => entry.1 = name).map Prod.snd

def columnsOf (table : String) : Option (List Column) :=
  match catalog.find table with
  | some (.table columns _) => some columns
  | _ => none

/-- The names of the indexes of a table. -/
def indexesOf (table : String) : List String :=
  (catalog.relations.filter fun entry =>
    match entry.2 with
    | .index index => index.table = table
    | .table _ _ => false).map Prod.fst

/-! ## Statements -/

def createTable (name : String) (columns : List Column) (primary : List String) :
    Option Catalog :=
  match catalog.find name with
  | some _ => some catalog
  | none =>
      if ¬ (columns.map Column.name).Nodup ∨ ¬ primary ⊆ columns.map Column.name then none
      else (choosePrimary (name :: catalog.names) name).map fun key =>
        { catalog with relations := catalog.relations ++
            [(name, .table columns primary), (key, .index ⟨name, .btree, true, primary⟩)] }

def replace (name : String) (relation : Relation) : Catalog :=
  { catalog with relations := catalog.relations.map fun entry =>
      if entry.1 = name then (name, relation) else entry }

def addColumn (table : String) (column : Column) (defaulted : Bool) : Option Catalog :=
  match catalog.find table with
  | some (.table columns primary) =>
      if column.name ∈ columns.map Column.name then some catalog
      else if column.notNull ∧ !defaulted ∧ table ∈ catalog.populated then none
      else some (catalog.replace table (.table (columns ++ [column]) primary))
  | _ => none

def createIndex (name : String) (index : Index) : Option Catalog :=
  match catalog.find index.table with
  | some (.table columns _) =>
      if ¬ index.columns ⊆ columns.map Column.name ∨
          index.method = .hash ∧ index.columns.length ≠ 1 then none
      else
        match catalog.find name with
        | some _ => some catalog
        | none => some { catalog with relations := catalog.relations ++ [(name, .index index)] }
  | _ => none

/-- A statement, with the names that PostgreSQL keeps. -/
def perform : Statement → Option Catalog
  | .createTable name columns primary =>
      catalog.createTable (truncated name) (columns.map Column.truncated) (primary.map truncated)
  | .addColumn table column defaulted =>
      catalog.addColumn (truncated table) column.truncated defaulted
  | .createIndex name index => catalog.createIndex (truncated name) index.truncated
  | .elsewhere _ => some catalog

/-- What PostgreSQL refuses for other reasons is a parameter. -/
def execute (refuses : Catalog → Statement → Bool) (statement : Statement) : Option Catalog :=
  if refuses catalog statement then none else catalog.perform statement

def executeAll (refuses : Catalog → Statement → Bool) : Catalog → List Statement →
    Option Catalog
  | catalog, [] => some catalog
  | catalog, statement :: rest =>
      (catalog.execute refuses statement).bind fun next => next.executeAll refuses rest

end Catalog

example : (Catalog.empty.executeAll (fun _ _ => false)
    [.createTable "a" [⟨"id", "uuid", true, false⟩] ["id"],
      .createIndex "a_pkey" ⟨"a", .btree, true, ["id"]⟩]).map Catalog.names =
    some ["a", "a_pkey"] := by decide

/-! ## Names that fit -/

theorem truncated_fits (name : String) : Fits (truncated name) := by
  rw [Fits, truncated, String.toList_ofList, List.length_take]
  exact Nat.min_le_left _ _

theorem truncated_eq {name : String} (fits : Fits name) : truncated name = name := by
  rw [truncated, List.take_of_length_le fits, String.ofList_toList]

theorem Column.truncated_fits (column : Column) : Fits column.truncated.name :=
  Catalogs.truncated_fits column.name

theorem primaryName_fits (table : String) (number : Nat) : Fits (primaryName table number) := by
  rw [Fits, primaryName, String.toList_ofList, List.length_take]
  exact Nat.min_le_left _ _

/-- A table whose name leaves room gives its name to the primary key. -/
theorem primaryName_zero {table : String} (fits : Fits (table ++ "_pkey")) :
    primaryName table 0 = table ++ "_pkey" := by
  unfold Fits at fits
  rw [String.toList_append] at fits
  have short : table.toList.length ≤ 58 := by
    have five : "_pkey".toList.length = 5 := rfl
    rw [List.length_append, five] at fits
    omega
  have room : 63 - "_pkey".length = 58 := rfl
  unfold primaryName
  simp only [if_true, room]
  rw [List.take_of_length_le short, List.take_of_length_le fits, String.ofList_append,
    String.ofList_toList, String.ofList_toList]

theorem choosePrimary_free {taken : List String} {table key : String}
    (chosen : choosePrimary taken table = some key) : key ∉ taken ∧ Fits key := by
  have free := List.find?_some chosen
  rcases List.mem_map.mp (List.mem_of_find?_eq_some chosen) with ⟨number, _, rfl⟩
  exact ⟨by simpa using free, primaryName_fits table number⟩

theorem choosePrimary_first {taken : List String} {table : String}
    (free : primaryName table 0 ∉ taken) :
    choosePrimary taken table = some (primaryName table 0) := by
  unfold choosePrimary
  rw [List.range_succ_eq_map, List.map_cons, List.find?_cons_of_pos (by simpa using free)]

namespace Catalog

variable {catalog next : Catalog}

/-! ## Relations by name -/

theorem mem_of_find {name : String} {relation : Relation}
    (found : catalog.find name = some relation) : (name, relation) ∈ catalog.relations := by
  rcases Option.map_eq_some_iff.mp found with ⟨entry, held, rfl⟩
  have named := List.find?_some held
  simp only [decide_eq_true_eq] at named
  exact named ▸ List.mem_of_find?_eq_some held

theorem mem_names_of_find {name : String} {relation : Relation}
    (found : catalog.find name = some relation) : name ∈ catalog.names :=
  List.mem_map.mpr ⟨_, mem_of_find found, rfl⟩

theorem find_eq_none {name : String} : catalog.find name = none ↔ name ∉ catalog.names := by
  simp only [find, names, Option.map_eq_none_iff, List.find?_eq_none, decide_eq_true_eq,
    List.mem_map, not_exists, not_and]

theorem find_of_mem {name : String} {relation : Relation} (apart : catalog.names.Nodup)
    (listed : (name, relation) ∈ catalog.relations) : catalog.find name = some relation := by
  cases found : catalog.find name with
  | none =>
      exact absurd (List.mem_map.mpr ⟨_, listed, rfl⟩) (find_eq_none.mp found)
  | some other =>
      have same := List.inj_on_of_nodup_map apart (mem_of_find found) listed rfl
      rw [(Prod.mk.inj same).2]

theorem find_added {entries : List (String × Relation)} {populated : List String}
    (name : String) : find ⟨catalog.relations ++ entries, populated⟩ name =
      (catalog.find name).or (find ⟨entries, populated⟩ name) := by
  simp only [find, List.find?_append]
  cases catalog.relations.find? fun entry => decide (entry.1 = name) <;> rfl

theorem find_replace (name : String) (relation : Relation) (other : String) :
    (catalog.replace name relation).find other =
      (catalog.find other).map fun old => if other = name then relation else old := by
  have kept : ((fun entry : String × Relation => decide (entry.1 = other)) ∘
      fun entry => if entry.1 = name then (name, relation) else entry) =
      fun entry => decide (entry.1 = other) := by
    funext entry
    by_cases here : entry.1 = name
    · simp [here]
    · simp [here]
  unfold find replace
  rw [List.find?_map, kept, Option.map_map, Option.map_map]
  cases held : catalog.relations.find? fun entry => decide (entry.1 = other) with
  | none => rfl
  | some entry =>
      have named := List.find?_some held
      simp only [decide_eq_true_eq] at named
      by_cases same : other = name
      · simp [named, same]
      · simp [named, same]

theorem names_replace (name : String) (relation : Relation) :
    (catalog.replace name relation).names = catalog.names := by
  unfold names replace
  rw [List.map_map]
  apply List.map_congr_left
  intro entry _
  by_cases here : entry.1 = name
  · simp [here]
  · simp [here]

/-! ## What a statement does -/

theorem createTable_cases {name : String} {columns : List Column} {primary : List String}
    (created : catalog.createTable name columns primary = some next) :
    (∃ relation, catalog.find name = some relation ∧ next = catalog) ∨
    (catalog.find name = none ∧ (columns.map Column.name).Nodup ∧
      primary ⊆ columns.map Column.name ∧
      ∃ key, choosePrimary (name :: catalog.names) name = some key ∧
        next = { catalog with relations := catalog.relations ++
          [(name, .table columns primary), (key, .index ⟨name, .btree, true, primary⟩)] }) := by
  unfold createTable at created
  split at created
  · rename_i relation found
    cases created
    exact .inl ⟨relation, found, rfl⟩
  · rename_i free
    split at created
    · exact nomatch created
    · rename_i valid
      rcases Option.map_eq_some_iff.mp created with ⟨key, chosen, rfl⟩
      rw [not_or, not_not, not_not] at valid
      exact .inr ⟨free, valid.1, valid.2, key, chosen, rfl⟩

theorem addColumn_cases {table : String} {column : Column} {defaulted : Bool}
    (added : catalog.addColumn table column defaulted = some next) :
    ∃ columns primary, catalog.find table = some (.table columns primary) ∧
      ((column.name ∈ columns.map Column.name ∧ next = catalog) ∨
        (column.name ∉ columns.map Column.name ∧
          next = catalog.replace table (.table (columns ++ [column]) primary))) := by
  unfold addColumn at added
  split at added
  · rename_i columns primary found
    refine ⟨columns, primary, found, ?_⟩
    split at added
    · rename_i present
      cases added
      exact .inl ⟨present, rfl⟩
    · rename_i absent
      split at added
      · exact nomatch added
      · cases added
        exact .inr ⟨absent, rfl⟩
  · exact nomatch added

theorem createIndex_cases {name : String} {index : Index}
    (created : catalog.createIndex name index = some next) :
    ∃ columns primary, catalog.find index.table = some (.table columns primary) ∧
      (index.method = .hash → index.columns.length = 1) ∧
      ((∃ relation, catalog.find name = some relation ∧ next = catalog) ∨
        (catalog.find name = none ∧
          next = { catalog with relations := catalog.relations ++ [(name, .index index)] })) := by
  unfold createIndex at created
  split at created
  · rename_i columns primary found
    split at created
    · exact nomatch created
    · rename_i valid
      rw [not_or, not_and, not_not] at valid
      refine ⟨columns, primary, found, fun hash => by simpa using valid.2 hash, ?_⟩
      split at created
      · rename_i relation taken
        cases created
        exact .inl ⟨relation, taken, rfl⟩
      · rename_i free
        cases created
        exact .inr ⟨free, rfl⟩
  · exact nomatch created

/-! ## Well-formed catalogs -/

structure Sound (catalog : Catalog) : Prop where
  apart : catalog.names.Nodup
  fit : ∀ name ∈ catalog.names, Fits name
  columns : ∀ {name columns primary}, (name, .table columns primary) ∈ catalog.relations →
    (columns.map Column.name).Nodup ∧ ∀ column ∈ columns, Fits column.name
  indexed : ∀ {name index}, (name, .index index) ∈ catalog.relations →
    index.table ∈ catalog.names

theorem sound_empty : Catalog.empty.Sound where
  apart := List.nodup_nil
  fit := nofun
  columns := nofun
  indexed := nofun

theorem Sound.createTable (sound : catalog.Sound) {name : String} {columns : List Column}
    {primary : List String} (fits : Fits name) (columnsFit : ∀ column ∈ columns, Fits column.name)
    (created : catalog.createTable name columns primary = some next) : next.Sound := by
  rcases createTable_cases created with ⟨_, _, rfl⟩ | ⟨free, unique, _, key, chosen, rfl⟩
  · exact sound
  · rcases choosePrimary_free chosen with ⟨keyFree, keyFits⟩
    rw [List.mem_cons, not_or] at keyFree
    have absent := find_eq_none.mp free
    have names : (catalog.relations ++ [(name, Relation.table columns primary),
        (key, .index ⟨name, .btree, true, primary⟩)]).map Prod.fst =
          catalog.names ++ [name, key] := by
      rw [List.map_append]
      rfl
    refine ⟨?_, ?_, ?_, ?_⟩
    · unfold Catalog.names
      rw [names]
      apply sound.apart.append
      · simpa [eq_comm] using keyFree.1
      · intro other inside last
        rcases List.mem_cons.mp last with rfl | last
        · exact absent inside
        · exact keyFree.2 (List.mem_singleton.mp last ▸ inside)
    · intro other listed
      unfold Catalog.names at listed
      rw [names, List.mem_append] at listed
      rcases listed with inside | last
      · exact sound.fit other inside
      · rcases List.mem_cons.mp last with rfl | last
        · exact fits
        · exact List.mem_singleton.mp last ▸ keyFits
    · intro other otherColumns otherPrimary listed
      rcases List.mem_append.mp listed with inside | last
      · exact sound.columns inside
      · rcases List.mem_cons.mp last with same | last
        · cases same
          exact ⟨unique, columnsFit⟩
        · cases List.mem_singleton.mp last
    · intro other index listed
      unfold Catalog.names
      rw [names, List.mem_append]
      rcases List.mem_append.mp listed with inside | last
      · exact .inl (sound.indexed inside)
      · rcases List.mem_cons.mp last with same | last
        · cases same
        · cases List.mem_singleton.mp last
          exact .inr List.mem_cons_self

theorem Sound.addColumn (sound : catalog.Sound) {table : String} {column : Column}
    {defaulted : Bool} (fits : Fits column.name)
    (added : catalog.addColumn table column defaulted = some next) : next.Sound := by
  rcases addColumn_cases added with ⟨columns, primary, found, ⟨_, rfl⟩ | ⟨absent, rfl⟩⟩
  · exact sound
  · have names : (catalog.replace table (.table (columns ++ [column]) primary)).names =
        catalog.names := names_replace table _
    refine ⟨names ▸ sound.apart, names ▸ sound.fit, ?_, ?_⟩
    · intro other otherColumns otherPrimary listed
      rcases List.mem_map.mp listed with ⟨entry, inside, same⟩
      split at same
      · cases same
        have valid := sound.columns (mem_of_find found)
        constructor
        · rw [List.map_append, List.map_singleton]
          apply valid.1.append (List.nodup_singleton _)
          intro present inside last
          exact absent (List.mem_singleton.mp last ▸ inside)
        · intro present listed
          rcases List.mem_append.mp listed with inside | last
          · exact valid.2 present inside
          · exact List.mem_singleton.mp last ▸ fits
      · exact sound.columns (same ▸ inside)
    · intro other index listed
      rcases List.mem_map.mp listed with ⟨entry, inside, same⟩
      rw [names]
      split at same
      · cases same
      · exact sound.indexed (same ▸ inside)

theorem Sound.createIndex (sound : catalog.Sound) {name : String} {index : Index}
    (fits : Fits name) (created : catalog.createIndex name index = some next) : next.Sound := by
  rcases createIndex_cases created with ⟨columns, primary, found, _, ⟨_, _, rfl⟩ | ⟨free, rfl⟩⟩
  · exact sound
  · have absent := find_eq_none.mp free
    have names : (catalog.relations ++ [(name, Relation.index index)]).map Prod.fst =
        catalog.names ++ [name] := by
      rw [List.map_append]
      rfl
    refine ⟨?_, ?_, ?_, ?_⟩
    · unfold Catalog.names
      rw [names]
      apply sound.apart.append (List.nodup_singleton _)
      intro other inside last
      exact absent (List.mem_singleton.mp last ▸ inside)
    · intro other listed
      unfold Catalog.names at listed
      rw [names, List.mem_append] at listed
      rcases listed with inside | last
      · exact sound.fit other inside
      · exact List.mem_singleton.mp last ▸ fits
    · intro other otherColumns otherPrimary listed
      rcases List.mem_append.mp listed with inside | last
      · exact sound.columns inside
      · cases List.mem_singleton.mp last
    · intro other otherIndex listed
      unfold Catalog.names
      rw [names, List.mem_append]
      rcases List.mem_append.mp listed with inside | last
      · exact .inl (sound.indexed inside)
      · cases List.mem_singleton.mp last
        exact .inl (mem_names_of_find found)

/-! ## Columns -/

/-- `ADD COLUMN IF NOT EXISTS`, on the columns of a table. -/
def extended (columns : List Column) (column : Column) : List Column :=
  if column.name ∈ columns.map Column.name then columns else columns ++ [column]

theorem columnsOf_eq {table : String} {columns : List Column} {primary : List String}
    (found : catalog.find table = some (.table columns primary)) :
    catalog.columnsOf table = some columns := by
  simp [columnsOf, found]

theorem find_of_columnsOf {table : String} {columns : List Column}
    (held : catalog.columnsOf table = some columns) :
    ∃ primary, catalog.find table = some (.table columns primary) := by
  unfold columnsOf at held
  split at held
  · rename_i found
    cases held
    exact ⟨_, found⟩
  · exact nomatch held

theorem columnsOf_createTable {name : String} {columns : List Column} {primary : List String}
    (created : catalog.createTable name columns primary = some next) (table : String) :
    next.columnsOf table = if table = name ∧ catalog.find name = none then some columns
      else catalog.columnsOf table := by
  rcases createTable_cases created with ⟨relation, found, rfl⟩ | ⟨free, _, _, key, chosen, rfl⟩
  · simp [found]
  · by_cases same : table = name
    · subst table
      rw [if_pos ⟨rfl, free⟩]
      unfold columnsOf
      rw [find_added, free]
      simp [find]
    · unfold columnsOf
      rw [find_added]
      cases held : catalog.find table with
      | some relation => simp [same]
      | none =>
          simp only [Option.none_or, same, false_and, if_false]
          have other : ¬ name = table := fun equal => same equal.symm
          by_cases last : key = table
          · simp [find, other, last]
          · simp [find, other, last]

theorem columnsOf_addColumn {name : String} {column : Column} {defaulted : Bool}
    (added : catalog.addColumn name column defaulted = some next) (table : String) :
    next.columnsOf table = if table = name then
        (catalog.columnsOf table).map fun columns => extended columns column
      else catalog.columnsOf table := by
  rcases addColumn_cases added with ⟨columns, primary, found, ⟨present, rfl⟩ | ⟨absent, rfl⟩⟩
  · split
    · rename_i same
      subst table
      rw [columnsOf_eq found, Option.map_some, extended, if_pos present]
    · rfl
  · by_cases same : table = name
    · subst table
      have replaced : (catalog.replace name (.table (columns ++ [column]) primary)).find name =
          some (.table (columns ++ [column]) primary) := by
        rw [find_replace, found]
        simp
      rw [columnsOf_eq replaced, if_pos rfl, columnsOf_eq found, Option.map_some, extended,
        if_neg absent]
    · unfold columnsOf
      rw [find_replace]
      simp [same]

theorem columnsOf_createIndex {name : String} {index : Index}
    (created : catalog.createIndex name index = some next) (table : String) :
    next.columnsOf table = catalog.columnsOf table := by
  rcases createIndex_cases created with ⟨columns, primary, found, _, ⟨_, _, rfl⟩ | ⟨free, rfl⟩⟩
  · rfl
  · unfold columnsOf
    rw [find_added]
    cases held : catalog.find table with
    | some relation => rfl
    | none => by_cases same : name = table <;> simp [find, same]

end Catalog

/-- The table whose columns a statement may change. -/
def Statement.altered : Statement → Option String
  | .createTable name _ _ => some (truncated name)
  | .addColumn table _ _ => some (truncated table)
  | _ => none

namespace Catalog

/-! ## Runs -/

section Runs

variable {catalog next : Catalog} {refuses : Catalog → Statement → Bool}
  {statement : Statement} {statements : List Statement}

theorem execute_performs (executed : catalog.execute refuses statement = some next) :
    refuses catalog statement = false ∧ catalog.perform statement = some next := by
  unfold execute at executed
  split at executed
  · exact nomatch executed
  · rename_i accepted
    exact ⟨eq_false_of_ne_true accepted, executed⟩

theorem execute_sound (sound : catalog.Sound)
    (executed : catalog.execute refuses statement = some next) : next.Sound := by
  have performed := (execute_performs executed).2
  cases statement with
  | createTable name columns primary =>
      apply sound.createTable (truncated_fits name) _ performed
      intro column listed
      rcases List.mem_map.mp listed with ⟨original, _, rfl⟩
      exact original.truncated_fits
  | addColumn table column defaulted =>
      exact sound.addColumn column.truncated_fits performed
  | createIndex name index => exact sound.createIndex (truncated_fits name) performed
  | elsewhere text =>
      cases performed
      exact sound

theorem execute_columnsOf {table : String} (other : statement.altered ≠ some table)
    (executed : catalog.execute refuses statement = some next) :
    next.columnsOf table = catalog.columnsOf table := by
  have performed := (execute_performs executed).2
  cases statement with
  | createTable name columns primary =>
      have different : table ≠ truncated name := fun same => other (congrArg some same.symm)
      rw [columnsOf_createTable performed]
      simp [different]
  | addColumn name column defaulted =>
      have different : table ≠ truncated name := fun same => other (congrArg some same.symm)
      rw [columnsOf_addColumn performed, if_neg different]
  | createIndex name index => exact columnsOf_createIndex performed table
  | elsewhere text =>
      cases performed
      rfl

theorem executeAll_cons (executed : catalog.executeAll refuses (statement :: statements) =
    some next) : ∃ middle, catalog.execute refuses statement = some middle ∧
      middle.executeAll refuses statements = some next := by
  rw [executeAll] at executed
  exact Option.bind_eq_some_iff.mp executed

theorem executeAll_append {before after : List Statement}
    (executed : catalog.executeAll refuses (before ++ after) = some next) :
    ∃ middle, catalog.executeAll refuses before = some middle ∧
      middle.executeAll refuses after = some next := by
  induction before generalizing catalog with
  | nil => exact ⟨catalog, rfl, executed⟩
  | cons statement rest induction =>
      rcases executeAll_cons executed with ⟨first, head, tail⟩
      rcases induction tail with ⟨middle, begun, ended⟩
      refine ⟨middle, ?_, ended⟩
      rw [executeAll, head]
      exact begun

theorem executeAll_columnsOf {table : String}
    (others : ∀ statement ∈ statements, statement.altered ≠ some table)
    (executed : catalog.executeAll refuses statements = some next) :
    next.columnsOf table = catalog.columnsOf table := by
  induction statements generalizing catalog with
  | nil =>
      cases executed
      rfl
  | cons statement rest induction =>
      rcases executeAll_cons executed with ⟨middle, head, tail⟩
      rw [induction (fun later listed => others later (List.mem_cons_of_mem _ listed)) tail,
        execute_columnsOf (others statement List.mem_cons_self) head]

/-- Columns that are added one after another. -/
theorem executeAll_addColumns {table : String} {columns : List (Column × Bool)}
    {before : List Column} (held : catalog.columnsOf (truncated table) = some before)
    (executed : catalog.executeAll refuses
      (columns.map fun column => .addColumn table column.1 column.2) = some next) :
    next.columnsOf (truncated table) =
      some ((columns.map fun column => column.1.truncated).foldl extended before) := by
  induction columns generalizing catalog before with
  | nil =>
      cases executed
      exact held
  | cons column rest induction =>
      rw [List.map_cons] at executed
      rcases executeAll_cons executed with ⟨middle, head, tail⟩
      have grown := columnsOf_addColumn (execute_performs head).2 (truncated table)
      rw [if_pos rfl, held] at grown
      exact induction grown tail

end Runs

variable {catalog : Catalog}

theorem Sound.columnsOf (sound : Sound catalog) {table : String} {columns : List Column}
    (held : catalog.columnsOf table = some columns) :
    (columns.map Column.name).Nodup ∧ ∀ column ∈ columns, Fits column.name := by
  rcases find_of_columnsOf held with ⟨primary, found⟩
  exact sound.columns (mem_of_find found)

/-! ## Exact columns -/

theorem foldl_extended_self {before added : List Column}
    (present : ∀ column ∈ added, column.name ∈ before.map Column.name) :
    added.foldl extended before = before := by
  induction added with
  | nil => rfl
  | cons column rest induction =>
      rw [List.foldl_cons, extended, if_pos (present column List.mem_cons_self)]
      exact induction fun later listed => present later (List.mem_cons_of_mem _ listed)

theorem subset_foldl_extended (before added : List Column) :
    before ⊆ added.foldl extended before := by
  induction added generalizing before with
  | nil => exact List.Subset.refl before
  | cons column rest induction =>
      refine List.Subset.trans ?_ (induction _)
      unfold extended
      split
      · exact List.Subset.refl before
      · exact List.subset_append_left _ _

theorem mem_foldl_extended {before added : List Column} {column : Column}
    (listed : column ∈ added.foldl extended before) : column ∈ before ∨ column ∈ added := by
  induction added generalizing before with
  | nil => exact .inl listed
  | cons first rest induction =>
      rcases induction listed with inside | later
      · unfold extended at inside
        split at inside
        · exact .inl inside
        · rcases List.mem_append.mp inside with old | new
          · exact .inl old
          · exact .inr (List.mem_cons.mpr (.inl (List.mem_singleton.mp new)))
      · exact .inr (List.mem_cons_of_mem _ later)

theorem name_foldl_extended {before added : List Column} {column : Column}
    (listed : column ∈ added) :
    column.name ∈ (added.foldl extended before).map Column.name := by
  induction added generalizing before with
  | nil => exact nomatch listed
  | cons first rest induction =>
      rcases List.mem_cons.mp listed with rfl | later
      · have present : column.name ∈ (extended before column).map Column.name := by
          unfold extended
          split
          · assumption
          · simp
        rcases List.mem_map.mp present with ⟨held, inside, same⟩
        exact List.mem_map.mpr ⟨held, subset_foldl_extended _ rest inside, same⟩
      · exact induction later

theorem nodup_foldl_extended {before added : List Column}
    (unique : (before.map Column.name).Nodup) :
    ((added.foldl extended before).map Column.name).Nodup := by
  induction added generalizing before with
  | nil => exact unique
  | cons column rest induction =>
      apply induction
      unfold extended
      split
      · exact unique
      · rename_i absent
        rw [List.map_append, List.map_singleton]
        apply unique.append (List.nodup_singleton _)
        intro name inside last
        exact absent (List.mem_singleton.mp last ▸ inside)

/-- Adding the columns that are expected leaves exactly them if and only if
there were no others and their names fit. -/
theorem foldl_extended_perm_iff {before expected : List Column}
    (unique : (before.map Column.name).Nodup) (fit : ∀ column ∈ before, Fits column.name)
    (distinct : (expected.map Column.name).Nodup) :
    ((expected.map Column.truncated).foldl extended before).Perm expected ↔
      before ⊆ expected ∧ ∀ column ∈ expected, Fits column.name := by
  constructor
  · intro same
    constructor
    · intro column listed
      exact same.subset (subset_foldl_extended before _ listed)
    · intro column listed
      rcases mem_foldl_extended (same.symm.subset listed) with old | new
      · exact fit column old
      · rcases List.mem_map.mp new with ⟨original, _, rfl⟩
        exact original.truncated_fits
  · rintro ⟨contained, fits⟩
    have whole : expected.map Column.truncated = expected := by
      rw [List.map_congr_left fun column listed =>
        show column.truncated = id column by
          rw [Column.truncated, truncated_eq (fits column listed)]
          rfl, List.map_id]
    rw [whole]
    have resultUnique : ((expected.foldl extended before).map Column.name).Nodup :=
      nodup_foldl_extended unique
    rw [List.perm_ext_iff_of_nodup resultUnique.of_map distinct.of_map]
    have nameHeld : ∀ {column : Column}, column ∈ expected →
        column.name ∈ (expected.foldl extended before).map Column.name :=
      fun listed => name_foldl_extended listed
    intro column
    constructor
    · intro listed
      rcases mem_foldl_extended listed with old | new
      · exact contained old
      · exact new
    · intro listed
      rcases List.mem_map.mp (nameHeld listed) with ⟨held, inside, same⟩
      have member : held ∈ expected := by
        rcases mem_foldl_extended inside with old | new
        · exact contained old
        · exact new
      exact List.inj_on_of_nodup_map distinct member listed same ▸ inside

end Catalog

end MeridianPostgreSQL.Catalogs
