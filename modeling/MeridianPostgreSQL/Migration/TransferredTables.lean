import MeridianPostgreSQL.Migration.LogicalTransfer

/-! # Transferred tables

An import of the lines of an export leaves copies of its rows in the tables,
exactly where each row can be written back. To import the lines again changes
nothing. -/

namespace MeridianPostgreSQL.Migration

open Settings
open Query
open KeyedLoads

/-! ## Constraints of copies -/

/-- A row with its values as the server compares them. -/
def normalRecord (row : StoredRow) : StoredRow :=
  ⟨fun column => (row.contents column).map StoredValue.normal, row.version⟩

/-- A table as PostgreSQL keeps it. -/
structure Stored (settings : PostgreSQLSettings) (layout : ResourceLayout)
    (table : List StoredRow) : Prop where
  holds : ∀ row ∈ table, ∀ field ∈ layout.fields, Holds field (row.contents field.column.text)
  keyed : Keyed (primaryKey settings layout) (table.map normalRecord)
  unique : (resourceTables settings).fits layout (table.map normalRecord) = true

/-- The scope's columns and those of some fields. -/
def Scoped (settings : PostgreSQLSettings) (layout : ResourceLayout) (columns : List String) :
    Prop :=
  ∃ others, columns = settings.scopeColumns ++ others ∧
    ∀ column ∈ others, ∃ field ∈ layout.fields, column = field.column.text

section Constraints

variable {compiler : DMLCompiler} {layout : ResourceLayout} {columns : List String}
  {owners owned : List (String × String)} {context other : OperationContext}
  {copy another row second : StoredRow}

theorem scoped_primaryKey (valid : layout.check = .ok ()) (held : layout.isRegistry = false)
    (settings : PostgreSQLSettings) : Scoped settings layout (primaryKey settings layout) := by
  refine ⟨_, rfl, ?_⟩
  intro column listed
  obtain ⟨name, inside, rfl⟩ := List.mem_map.mp listed
  obtain ⟨field, present, rfl⟩ := identity_field valid held inside
  exact ⟨field, present, columnOf_found (field_of_mem valid held present)⟩

/-- The rows of a scope differ in columns of fields. -/
theorem column_of_copies (shaped : Scoped compiler.settings layout columns)
    (scopeOk : compiler.scopeValues context = .ok owned) (first : InScope owned row)
    (last : InScope owned second) (copies : Copies layout owners copy row)
    (others : Copies layout owners another second) {column : String} (listed : column ∈ columns) :
    (normalRecord row).contents column = (normalRecord second).contents column ∧
        (normalRecord row).contents column ≠ none ∨
      copy.contents column = (normalRecord row).contents column ∧
        another.contents column = (normalRecord second).contents column := by
  obtain ⟨names, rfl, fields⟩ := shaped
  rcases List.mem_append.mp listed with scope | field
  · rw [← scope_columns scopeOk] at scope
    obtain ⟨entry, inside, rfl⟩ := List.mem_map.mp scope
    left
    simp [normalRecord, first entry inside, last entry inside]
  · obtain ⟨_, inside, rfl⟩ := fields column field
    exact .inr ⟨copies.fields _ inside, others.fields _ inside⟩

/-- Copies have one key only where their rows have. -/
theorem key_of_copies (shaped : Scoped compiler.settings layout columns)
    (scopeOk : compiler.scopeValues context = .ok owned) (first : InScope owned row)
    (last : InScope owned second) (copies : Copies layout owners copy row)
    (others : Copies layout owners another second)
    (same : recordKey columns copy = recordKey columns another) :
    recordKey columns (normalRecord row) = recordKey columns (normalRecord second) := by
  apply List.map_congr_left
  intro column listed
  have equal := List.map_inj_left.mp same column listed
  rcases column_of_copies shaped scopeOk first last copies others listed with owned | ⟨left, right⟩
  · exact owned.1
  · rw [← left, ← right]
    exact equal

/-- A unique index tells copies apart as it does their rows. -/
theorem apart_of_copies (shaped : Scoped compiler.settings layout columns)
    (scopeOk : compiler.scopeValues context = .ok owned) (first : InScope owned row)
    (last : InScope owned second) (copies : Copies layout owners copy row)
    (others : Copies layout owners another second)
    (apart : Apart columns (normalRecord row) (normalRecord second)) :
    Apart columns copy another := by
  obtain ⟨column, listed, different⟩ := apart
  rcases column_of_copies shaped scopeOk first last copies others listed with owned | ⟨left, right⟩
  · exact absurd different (not_or.mpr ⟨not_not.mpr owned.1, owned.2⟩)
  · exact ⟨column, listed, by rwa [left, right]⟩

/-- A row of another scope has another key. -/
theorem other_scope (shaped : Scoped compiler.settings layout columns)
    (scopeOk : compiler.scopeValues context = .ok owners) (inside : InScope owners copy)
    (outside : ¬ InScope owners another) :
    ∃ column ∈ columns, another.contents column ≠ copy.contents column := by
  obtain ⟨names, rfl, _⟩ := shaped
  simp only [InScope, not_forall] at outside
  obtain ⟨entry, listed, different⟩ := outside
  refine ⟨entry.1, List.mem_append_left _ ?_, by rwa [inside entry listed]⟩
  rw [← scope_columns scopeOk]
  exact List.mem_map_of_mem listed

theorem Apart.symm {first second : StoredRow} (apart : Apart columns first second) :
    Apart columns second first := by
  obtain ⟨column, listed, different⟩ := apart
  refine ⟨column, listed, ?_⟩
  by_cases same : second.contents column = first.contents column
  · exact .inr (different.elim (absurd same.symm) (same.trans ·))
  · exact .inl same

end Constraints

/-! ## Accepted settings -/

section Accepted

variable {settings : PostgreSQLSettings}

theorem scoped_uniqueColumns (accepted : settings.check = .ok ()) {layout : ResourceLayout}
    (bound : layout ∈ settings.resources) :
    ∀ columns ∈ uniqueColumns settings layout, Scoped settings layout columns := by
  intro columns listed
  obtain ⟨entry, member, rfl⟩ := List.mem_map.mp listed
  obtain ⟨made, unique⟩ := List.mem_filter.mp member
  obtain ⟨index, declared, _, defined⟩ := declaredIndexes_cases made
  have tree := unique_btree accepted bound declared (indexDefinition_unique defined unique)
  rw [Schema.indexDefinition, tree] at defined
  rw [← Option.some.inj defined]
  refine ⟨_, rfl, ?_⟩
  intro column inside
  obtain ⟨field, present, rfl⟩ := List.mem_map.mp (fieldColumns_subset _ inside)
  exact ⟨field, present, rfl⟩

/-- `_scope` finds the scope of the context of a request. -/
theorem importScope_ok {compiler : DMLCompiler} {tenant : String}
    {scope owners : List (String × String)}
    (found : importScope compiler tenant scope = .ok owners) :
    compiler.scopeValues ⟨some tenant, scope⟩ = .ok owners := by
  unfold importScope at found
  dsimp only at found
  split at found
  · cases found
  · rename_i complete
    simp only [not_or] at complete
    simp only [DMLCompiler.scopeValues]
    rw [if_neg (not_or.mpr complete.2)]
    exact found

theorem settings_layout {resource : String} {layout : ResourceLayout}
    (found : settings.layout resource = some layout) :
    layout ∈ settings.resources ∧ layout.ref.canonical = resource := by
  have named := List.find?_some found
  exact ⟨List.mem_of_find?_eq_some found, by simpa using named⟩

/-- What is selected for each resource. -/
theorem exportSelections_ok {compiler : DMLCompiler} {tenant : String}
    {scope : List (String × String)} {resources : List String}
    {selections : List (ResourceLayout × Selection)}
    (selected : exportSelections compiler tenant scope resources = .ok selections) :
    ∃ owned, importScope compiler tenant scope = .ok owned ∧
      List.Forall₂ (fun resource entry => compiler.settings.layout resource = some entry.1 ∧
        entry.1.isRegistry = false ∧ entry.2.scope = owned) resources selections := by
  obtain ⟨owned, scopeOk, selected⟩ := Query.bind_eq_ok selected
  refine ⟨owned, scopeOk, (mapM_eq_ok selected).imp ?_⟩
  intro resource entry made
  unfold exportSelection at made
  split at made
  · cases made
  · rename_i layout found
    split at made
    · cases made
    · rename_i data
      obtain ⟨identity, _, made⟩ := Query.bind_eq_ok made
      cases made
      exact ⟨found, eq_false_of_ne_true data, rfl⟩

end Accepted

/-! ## Other scopes -/

section Scopes

variable {compiler : DMLCompiler} {session : Session} {geography : Geography}
  {engine : Engine (Option StoredValue)} {owners : List (String × String)}

/-- Every record of an import is in its scope. -/
theorem importedRecord_inScope {context : OperationContext}
    (accepted : compiler.settings.check = .ok ())
    (scopeOk : compiler.scopeValues context = .ok owners) {line : Json}
    {item : ResourceLayout × StoredRow}
    (made : importedRecord compiler session geography engine owners line = some item) :
    InScope owners item.2 := by
  unfold importedRecord at made
  obtain ⟨⟨layout, mutation⟩, target, made⟩ := Option.bind_eq_some_iff.mp made
  obtain ⟨_, values, found, held, compiled⟩ := importTarget_ok (ok_of_toOption target)
  obtain ⟨fields, first, _, fieldsOk, rfl⟩ := importMutation_ok compiled
  have checked := settings_checked accepted
  have valid := checked.layouts layout (settings_layout found).1
  dsimp only at made
  split at made
  · cases made
    intro entry listed
    rw [inserted_eq _ valid held scopeOk fieldsOk, given_owner _ checked.scopeKeys scopeOk listed,
      storingEngine]
    simp only [storedColumn, scope_not_field valid scopeOk listed]
    rfl
  · cases made

/-- An import changes no row of another tenant or scope. -/
theorem imports_isolated {tenant : String} {scope : List (String × String)}
    {target after : StoredTables} {lines : List Json}
    (accepted : compiler.settings.check = .ok ())
    (targetOk : importScope compiler tenant scope = .ok owners)
    (imports : importAll compiler session geography engine tenant scope target lines =
      some after) (layout : ResourceLayout) :
    (after layout).filter (fun row => ¬ InScope owners row) =
      (target layout).filter fun row => ¬ InScope owners row := by
  unfold importAll at imports
  split at imports
  · cases imports
  · rw [targetOk] at imports
    obtain ⟨items, made, loaded⟩ := foldlM_load.mp imports
    have scopeOk := importScope_ok targetOk
    have new : ∀ item ∈ items, decide (InScope owners item.2) = true := by
      intro item listed
      obtain ⟨line, _, record⟩ := exists_related (mapM_some_iff.mp made).flip item listed
      exact decide_eq_true (importedRecord_inScope accepted scopeOk record)
    have keyed : ∀ {place : ResourceLayout} {first second : StoredRow},
        (resourceTables compiler.settings).key place first =
          (resourceTables compiler.settings).key place second →
            decide (InScope owners first) = decide (InScope owners second) := by
      intro place first second same
      rw [decide_eq_decide]
      refine forall₂_congr fun entry listed => ?_
      have column : entry.1 ∈ primaryKey compiler.settings place := by
        apply List.mem_append_left
        rw [← scope_columns scopeOk]
        exact List.mem_map_of_mem listed
      rw [List.map_inj_left.mp same entry.1 column]
    simpa using load_outside keyed loaded new layout

end Scopes

/-! ## Transfers -/

/-- The tables after an import: copies of the rows of each selected resource at
the end of its table, and the other tables as they were. -/
structure Transferred (places : List ResourceLayout) (owners : List (String × String))
    (rows : ResourceLayout → List StoredRow) (target after : StoredTables) : Prop where
  copied : ∀ layout ∈ places, ∃ copies, after layout = target layout ++ copies ∧
    List.Forall₂ (Copies layout owners) copies (rows layout)
  others : ∀ layout ∉ places, after layout = target layout

/-- The copy that the line of a row makes. -/
def Made (compiler : DMLCompiler) (session : Session) (geography : Geography)
    (engine : Engine (Option StoredValue)) (owners : List (String × String))
    (layout : ResourceLayout) (copy row : StoredRow) : Prop :=
  ∃ line, exportLine session geography layout row = some line ∧
    importedRecord compiler session geography engine owners line = some (layout, copy)

section Transfers

variable {compiler : DMLCompiler} {session : Session} {geography : Geography}
  {engine : Engine (Option StoredValue)} {source target after : StoredTables}
  {tenant destination : String} {scope owners : List (String × String)}
  {targetScope : List (String × String)} {resources : List String}
  {selections : List (ResourceLayout × Selection)} {rows : ResourceLayout → List StoredRow}
  {lines : List Json}

/-- The rows of the places, place by place. -/
def placedRows (places : List ResourceLayout) (rows : ResourceLayout → List StoredRow) :
    List (ResourceLayout × StoredRow) :=
  places.flatMap fun layout => (rows layout).map fun row => (layout, row)

theorem mem_placedRows {places : List ResourceLayout} {item : ResourceLayout × StoredRow} :
    item ∈ placedRows places rows ↔ item.1 ∈ places ∧ item.2 ∈ rows item.1 := by
  unfold placedRows
  constructor
  · intro listed
    obtain ⟨layout, inside, made⟩ := List.mem_flatMap.mp listed
    obtain ⟨row, held, rfl⟩ := List.mem_map.mp made
    exact ⟨inside, held⟩
  · rintro ⟨inside, held⟩
    exact List.mem_flatMap.mpr ⟨item.1, inside, List.mem_map.mpr ⟨item.2, held, rfl⟩⟩

/-- What is known of a layout that an export selects. -/
structure Selected (compiler : DMLCompiler) (session : Session) (geography : Geography)
    (owned : List (String × String)) (rows : ResourceLayout → List StoredRow)
    (layout : ResourceLayout) : Prop where
  bound : layout ∈ compiler.settings.resources
  valid : layout.check = .ok ()
  held : layout.isRegistry = false
  named : compiler.settings.layout layout.ref.canonical = some layout
  inside : ∀ row ∈ rows layout, InScope owned row
  holds : ∀ row ∈ rows layout, ∀ field ∈ layout.fields,
    Holds field (row.contents field.column.text)
  keyed : (rows layout).Pairwise fun first second =>
    recordKey (primaryKey compiler.settings layout) (normalRecord first) ≠
      recordKey (primaryKey compiler.settings layout) (normalRecord second)
  unique : ∀ columns ∈ uniqueColumns compiler.settings layout, (rows layout).Pairwise
    fun first second => Apart columns (normalRecord first) (normalRecord second)

theorem exported_selected (accepted : compiler.settings.check = .ok ())
    (stored : ∀ layout ∈ compiler.settings.resources,
      Stored compiler.settings layout (source layout))
    (exported : Exported compiler session geography source tenant scope resources selections rows
      lines) (distinct : resources.Nodup) :
    ∃ owned, importScope compiler tenant scope = .ok owned ∧
      (selections.map Prod.fst).Nodup ∧ ∀ layout ∈ selections.map Prod.fst,
        Selected compiler session geography owned rows layout := by
  obtain ⟨owned, scopeOk, pairs⟩ := exportSelections_ok exported.selected
  refine ⟨owned, scopeOk, ?_, ?_⟩
  · have names : (selections.map Prod.fst).map (fun layout => layout.ref.canonical) =
        resources := by
      clear exported distinct
      induction pairs with
      | nil => rfl
      | cons head _ induction =>
          rw [List.map_cons, List.map_cons, induction, (settings_layout head.1).2]
    exact List.Nodup.of_map _ (names ▸ distinct)
  · intro layout listed
    obtain ⟨entry, inside, rfl⟩ := List.mem_map.mp listed
    obtain ⟨resource, _, found, data, within⟩ := exists_related pairs.flip entry inside
    obtain ⟨bound, named⟩ := settings_layout found
    have table := stored entry.1 bound
    have chosen := exported.found entry inside
    rw [within] at chosen
    have present : ∀ row ∈ rows entry.1, row ∈ source entry.1 ∧ InScope owned row := by
      intro row held
      obtain ⟨listed, owner⟩ := List.mem_filter.mp (chosen.mem_iff.mp held)
      exact ⟨listed, of_decide_eq_true owner⟩
    have keyed : (source entry.1).Pairwise fun first second =>
        recordKey (primaryKey compiler.settings entry.1) (normalRecord first) ≠
          recordKey (primaryKey compiler.settings entry.1) (normalRecord second) := by
      have distinct := table.keyed
      rw [Keyed, List.map_map, List.Nodup, List.pairwise_map] at distinct
      exact distinct
    have unique : ∀ columns ∈ uniqueColumns compiler.settings entry.1,
        (source entry.1).Pairwise fun first second =>
          Apart columns (normalRecord first) (normalRecord second) := by
      intro columns declared
      have fits := List.all_eq_true.mp table.unique columns declared
      exact List.pairwise_map.mp (of_decide_eq_true fits)
    constructor
    · exact bound
    · exact (settings_checked accepted).layouts entry.1 bound
    · exact data
    · rwa [named]
    · exact fun row held => (present row held).2
    · exact fun row held => table.holds row (present row held).1
    · exact (chosen.pairwise_iff fun different => Ne.symm different).mpr
        (keyed.sublist List.filter_sublist)
    · intro columns declared
      exact (chosen.pairwise_iff fun apart => Apart.symm apart).mpr
        ((unique columns declared).sublist List.filter_sublist)

theorem written_lines (exported : Exported compiler session geography source tenant scope resources
      selections rows lines) :
    List.Forall₂ (fun item line => exportLine session geography item.1 item.2 = some line)
      (placedRows (selections.map Prod.fst) rows) lines := by
  have written := mapM_some_iff.mp exported.written
  rw [placedRows, List.flatMap_map]
  exact written

section Selected

variable {places : List ResourceLayout} {owned : List (String × String)}
  {items : List (ResourceLayout × StoredRow)} {sourceContext targetContext : OperationContext}
  (selected : ∀ layout ∈ places, Selected compiler session geography owned rows layout)

include selected

/-- The records of the lines are made of the rows. -/
theorem made_items (targetOk : compiler.scopeValues targetContext = .ok owners)
    (written : List.Forall₂
      (fun item line => exportLine session geography item.1 item.2 = some line)
      (placedRows places rows) lines)
    (made : lines.mapM (importedRecord compiler session geography engine owners) = some items) :
    List.Forall₂ (fun item row => item.1 = row.1 ∧
      Made compiler session geography engine owners item.1 item.2 row.2) items
      (placedRows places rows) := by
  have pairs := related_mem (related_trans written (mapM_some_iff.mp made))
  refine pairs.flip.imp ?_
  rintro item row ⟨⟨line, text, record⟩, listed, _⟩
  have chosen := selected row.1 (mem_placedRows.mp listed).1
  obtain ⟨values, shows, _⟩ := Option.map_eq_some_iff.mp text
  have same := ((importedRecord_line chosen.valid chosen.held chosen.named targetOk shows text).mp
    record).2.2
  have place : item.1 = row.1 := by rw [same]
  refine ⟨place, line, by rwa [place], ?_⟩
  rw [record]

/-- The records of the lines are copies of rows that can be written back. -/
theorem copied_items (accepted : compiler.settings.check = .ok ())
    (targetOk : compiler.scopeValues targetContext = .ok owners)
    (written : List.Forall₂
      (fun item line => exportLine session geography item.1 item.2 = some line)
      (placedRows places rows) lines)
    (made : lines.mapM (importedRecord compiler session geography engine owners) = some items)
    (transfers : ∀ layout ∈ places, ∀ row ∈ rows layout,
      Transfers compiler session geography layout row) :
    List.Forall₂ (fun item row => item.1 = row.1 ∧ Copies item.1 owners item.2 row.2) items
      (placedRows places rows) := by
  refine (related_mem (made_items selected targetOk written made)).imp ?_
  rintro item row ⟨⟨place, line, text, record⟩, _, inside⟩
  obtain ⟨here, held⟩ := mem_placedRows.mp inside
  rw [← place] at here held
  have chosen := selected item.1 here
  obtain ⟨values, shows, _⟩ := Option.map_eq_some_iff.mp text
  obtain ⟨other, same, copies⟩ := (line_copies_iff chosen.valid chosen.held targetOk shows
    (settings_checked accepted).scopeKeys chosen.named text (chosen.holds row.2 held)).mpr
      (transfers item.1 here row.2 held)
  cases record.symm.trans same
  exact ⟨place, copies⟩

/-- Copies of rows with keys of their own have keys of their own. -/
theorem copies_distinct (sourceOk : compiler.scopeValues sourceContext = .ok owned)
    (distinct : places.Nodup)
    (pairs : List.Forall₂ (fun item row => item.1 = row.1 ∧ Copies item.1 owners item.2 row.2)
      items (placedRows places rows)) :
    (items.map fun item => (item.1, (resourceTables compiler.settings).key item.1 item.2)).Nodup := by
  have apart : (placedRows places rows).Pairwise fun first second => first.1 = second.1 →
      recordKey (primaryKey compiler.settings first.1) (normalRecord first.2) ≠
        recordKey (primaryKey compiler.settings first.1) (normalRecord second.2) := by
    rw [placedRows, List.pairwise_flatMap]
    constructor
    · intro layout listed
      rw [List.pairwise_map]
      refine (selected layout listed).keyed.imp ?_
      intro first second different _
      exact different
    · refine distinct.imp ?_
      intro layout other different first inside second held same
      obtain ⟨_, _, rfl⟩ := List.mem_map.mp inside
      obtain ⟨_, _, rfl⟩ := List.mem_map.mp held
      exact absurd same different
  rw [List.Nodup, List.pairwise_map]
  refine pairwise_related (related_mem pairs) ?_ apart
  rintro first second row another ⟨⟨place, copies⟩, _, listed⟩ ⟨⟨other, others⟩, _, held⟩ keys same
  obtain ⟨here, equal⟩ := Prod.mk.inj same
  have shared : row.1 = another.1 := by rw [← place, ← other, here]
  have chosen := selected row.1 (mem_placedRows.mp listed).1
  have last := (mem_placedRows.mp held).2
  rw [← shared] at last
  apply keys shared
  apply key_of_copies (scoped_primaryKey chosen.valid chosen.held compiler.settings) sourceOk
    (chosen.inside _ (mem_placedRows.mp listed).2) (chosen.inside _ last)
    (place ▸ copies) (by rw [shared, ← other]; exact others)
  rw [← place]
  refine Eq.trans equal ?_
  rw [here]
  rfl

/-- The constraints of the tables allow the copies. -/
theorem copies_fit (accepted : compiler.settings.check = .ok ())
    (sourceOk : compiler.scopeValues sourceContext = .ok owned)
    (targetOk : compiler.scopeValues targetContext = .ok owners) {layout : ResourceLayout}
    (listed : layout ∈ places) {copies before : List StoredRow}
    (pairs : List.Forall₂ (Copies layout owners) copies (rows layout))
    (fits : (resourceTables compiler.settings).fits layout before = true)
    (empty : ∀ record ∈ before, ¬ InScope owners record) :
    (resourceTables compiler.settings).fits layout (before ++ copies) = true := by
  have chosen := selected layout listed
  rw [resourceTables, List.all_eq_true] at fits ⊢
  intro columns declared
  have shaped := scoped_uniqueColumns accepted chosen.bound columns declared
  refine decide_eq_true (List.pairwise_append.mpr ⟨of_decide_eq_true (fits columns declared), ?_, ?_⟩)
  · refine pairwise_related (related_mem pairs) ?_ (chosen.unique columns declared)
    rintro copy another row second ⟨first, _, inside⟩ ⟨last, _, held⟩ apart
    exact apart_of_copies shaped sourceOk (chosen.inside row inside) (chosen.inside second held)
      first last apart
  · intro record inside copy listed
    obtain ⟨row, _, copied⟩ := exists_related pairs copy listed
    obtain ⟨column, held, different⟩ :=
      other_scope shaped targetOk copied.owned (empty record inside)
    exact ⟨column, held, .inl different⟩

end Selected

theorem rowsAt_placedRows {places : List ResourceLayout} (distinct : places.Nodup)
    (layout : ResourceLayout) : rowsAt (placedRows places rows) layout =
      if layout ∈ places then rows layout else [] :=
  rowsAt_flatMap distinct rows layout

/-- An import that leaves copies of the rows has made a copy of each. -/
theorem transfers_of_transferred (accepted : compiler.settings.check = .ok ())
    (stored : ∀ layout ∈ compiler.settings.resources,
      Stored compiler.settings layout (source layout))
    (exported : Exported compiler session geography source tenant scope resources selections rows
      lines) (distinct : resources.Nodup)
    (targetOk : importScope compiler destination targetScope = .ok owners)
    (imports : importAll compiler session geography engine destination targetScope target lines =
      some after)
    (transferred : Transferred (selections.map Prod.fst) owners rows target after) :
    ∀ layout ∈ selections.map Prod.fst, ∀ row ∈ rows layout,
      Transfers compiler session geography layout row := by
  obtain ⟨owned, _, places, selected⟩ := exported_selected accepted stored exported distinct
  have scopeOk := importScope_ok targetOk
  unfold importAll at imports
  split at imports
  · cases imports
  · rw [targetOk] at imports
    obtain ⟨items, made, loaded⟩ := foldlM_load.mp imports
    have pairs := made_items selected scopeOk (written_lines exported) made
    have related := fun layout => rowsAt_related pairs layout
    have lengths : ∀ layout, (after layout).length =
        (target layout).length + (rowsAt items layout).length := by
      intro layout
      rw [(related layout).length_eq, rowsAt_placedRows places]
      split
      · rename_i listed
        obtain ⟨copies, table, each⟩ := transferred.copied layout listed
        rw [table, List.length_append, each.length_eq]
      · rename_i unlisted
        rw [transferred.others layout unlisted, List.length_nil, Nat.add_zero]
    have whole := load_appended loaded lengths
    intro layout listed row held
    obtain ⟨copies, table, each⟩ := transferred.copied layout listed
    have same : copies = rowsAt items layout := by
      rw [whole, appended] at table
      exact (List.append_cancel_left table).symm
    have lines := related layout
    rw [rowsAt_placedRows places, if_pos listed, ← same] at lines
    have both := each.mp (fun copy row copies made => And.intro copies made) lines
    obtain ⟨copy, _, copies, line, text, record⟩ := exists_related both.flip row held
    have chosen := selected layout listed
    obtain ⟨values, shows, _⟩ := Option.map_eq_some_iff.mp text
    exact (line_copies_iff chosen.valid chosen.held scopeOk shows
      (settings_checked accepted).scopeKeys chosen.named text (chosen.holds row held)).mp
        ⟨_, record, copies⟩

/-- Rows that can all be written back are copied. -/
theorem transferred_of_transfers (accepted : compiler.settings.check = .ok ())
    (writable : compiler.settings.readOnly = false)
    (stored : ∀ layout ∈ compiler.settings.resources,
      Stored compiler.settings layout (source layout))
    (exported : Exported compiler session geography source tenant scope resources selections rows
      lines) (distinct : resources.Nodup)
    (targetOk : importScope compiler destination targetScope = .ok owners)
    (fits : ∀ layout ∈ selections.map Prod.fst,
      (resourceTables compiler.settings).fits layout (target layout) = true)
    (empty : ∀ layout ∈ selections.map Prod.fst, ∀ record ∈ target layout,
      ¬ InScope owners record)
    (transfers : ∀ layout ∈ selections.map Prod.fst, ∀ row ∈ rows layout,
      Transfers compiler session geography layout row) :
    ∃ after, importAll compiler session geography engine destination targetScope target lines =
        some after ∧ Transferred (selections.map Prod.fst) owners rows target after := by
  obtain ⟨owned, sourceOk, places, selected⟩ := exported_selected accepted stored exported distinct
  have scopeOk := importScope_ok targetOk
  have written := written_lines exported
  have copy : ∀ line ∈ lines, ∃ item,
      importedRecord compiler session geography engine owners line = some item := by
    intro line listed
    obtain ⟨row, inside, text⟩ := exists_related written.flip line listed
    obtain ⟨here, held⟩ := mem_placedRows.mp inside
    have chosen := selected row.1 here
    obtain ⟨values, shows, _⟩ := Option.map_eq_some_iff.mp text
    obtain ⟨item, record, _⟩ := (line_copies_iff chosen.valid chosen.held scopeOk shows
      (settings_checked accepted).scopeKeys chosen.named text (chosen.holds row.2 held)).mpr
        (transfers row.1 here row.2 held)
    exact ⟨item, record⟩
  obtain ⟨items, made⟩ := mapM_some_exists copy
  have pairs := copied_items selected accepted scopeOk written made transfers
  have copied := @rowsAt_related ResourceLayout StoredRow _ items StoredRow
    (fun layout => Copies layout owners) _ pairs
  have related : ∀ layout ∈ selections.map Prod.fst,
      List.Forall₂ (Copies layout owners) (rowsAt items layout) (rows layout) := by
    intro layout listed
    have each := copied layout
    rwa [rowsAt_placedRows places, if_pos listed] at each
  have here : ∀ item ∈ items, item.1 ∈ selections.map Prod.fst := by
    intro item listed
    obtain ⟨row, inside, place, _⟩ := exists_related pairs item listed
    rw [place]
    exact (mem_placedRows.mp inside).1
  have fresh : Fresh (resourceTables compiler.settings) target items := by
    refine ⟨copies_distinct selected (importScope_ok sourceOk) places pairs, ?_⟩
    intro item listed other inside same
    have chosen := selected item.1 (here item listed)
    obtain ⟨_, _, _, copies⟩ := exists_related pairs item listed
    obtain ⟨column, key, different⟩ :=
      other_scope (scoped_primaryKey chosen.valid chosen.held compiler.settings) scopeOk
        copies.owned (empty item.1 (here item listed) other inside)
    exact different (List.map_inj_left.mp same column key)
  have allowed : ∀ item ∈ items, (resourceTables compiler.settings).fits item.1
      (appended target items item.1) = true := by
    intro item listed
    have place := here item listed
    exact copies_fit selected accepted (importScope_ok sourceOk) scopeOk place
      (related item.1 place) (fits item.1 place) (empty item.1 place)
  refine ⟨appended target items, ?_, ?_, ?_⟩
  · unfold importAll
    rw [if_neg (by simp [writable]), targetOk]
    exact foldlM_load.mpr ⟨items, made, load_fresh fresh allowed⟩
  · intro layout listed
    exact ⟨_, rfl, related layout listed⟩
  · intro layout unlisted
    have none := (copied layout).length_eq
    rw [rowsAt_placedRows places, if_neg unlisted, List.length_nil] at none
    rw [appended, List.length_eq_zero_iff.mp none, List.append_nil]

/-- The lines of rows that can be written back are of different records. -/
theorem exported_distinct (accepted : compiler.settings.check = .ok ())
    (stored : ∀ layout ∈ compiler.settings.resources,
      Stored compiler.settings layout (source layout))
    (exported : Exported compiler session geography source tenant scope resources selections rows
      lines) (distinct : resources.Nodup)
    (targetOk : importScope compiler destination targetScope = .ok owners)
    (transfers : ∀ layout ∈ selections.map Prod.fst, ∀ row ∈ rows layout,
      Transfers compiler session geography layout row) {items : List (ResourceLayout × StoredRow)}
    (made : lines.mapM (importedRecord compiler session geography engine owners) = some items) :
    (items.map fun item =>
      (item.1, recordKey (primaryKey compiler.settings item.1) item.2)).Nodup := by
  obtain ⟨owned, sourceOk, places, selected⟩ := exported_selected accepted stored exported distinct
  exact copies_distinct selected (importScope_ok sourceOk) places (copied_items selected accepted
    (importScope_ok targetOk) (written_lines exported) made transfers)

/-- Lines of different records, once imported, are imported again without
effect. -/
theorem imported_again (targetOk : importScope compiler destination targetScope = .ok owners)
    (distinct : ∀ items,
      lines.mapM (importedRecord compiler session geography engine owners) = some items →
        (items.map fun item =>
          (item.1, recordKey (primaryKey compiler.settings item.1) item.2)).Nodup)
    (imports : importAll compiler session geography engine destination targetScope target lines =
      some after) :
    importAll compiler session geography engine destination targetScope after lines =
      some after := by
  unfold importAll at imports ⊢
  split at imports
  · cases imports
  · rename_i writable
    rw [targetOk] at imports ⊢
    rw [if_neg writable]
    obtain ⟨items, made, loaded⟩ := foldlM_load.mp imports
    exact foldlM_load.mpr ⟨items, made, load_again loaded (distinct items made)⟩

end Transfers

/-! ## A transfer of the work queue -/

section Work

open PostgreSQLQueryTranslator

/-- No item of work has a point. -/
def pointless : Geography where
  longitude := fun _ => 0
  latitude := fun _ => 0
  makePoint := fun _ _ => ""

/-- An import tests no condition. -/
def untested : Engine (Option StoredValue) where
  null := none
  store := fun _ _ => none
  holds := fun _ _ => false
  versionIs := fun _ _ => false

def workRow (number : Nat) (small : number < 256) : StoredRow where
  contents := fun column =>
    [("__tenant", StoredValue.text "tenant"), ("__scope_workspace", .text "main"),
      ("id", .uuid (itemUuid number small)), ("state", .text "ready"),
      ("priority", .integer 1)].lookup column
  version := 3

theorem firstSmall : 1 < 256 := by decide

theorem secondSmall : 2 < 256 := by decide

def workRows : List StoredRow := [workRow 1 firstSmall, workRow 2 secondSmall]

def workTables : StoredTables := fun layout => if layout = workLayout then workRows else []

def workSelection : ResourceLayout × Selection :=
  (workLayout, ⟨workLayout.fields, [("__tenant", "tenant"), ("__scope_workspace", "main")],
    ["id"]⟩)

theorem workTables_rows : workTables workLayout = workRows := if_pos rfl

theorem workTables_stored : ∀ layout ∈ workCompiler.settings.resources,
    Stored workCompiler.settings layout (workTables layout) := by
  intro layout listed
  cases List.mem_singleton.mp listed
  rw [workTables_rows]
  have holds : ∀ number small, ∀ field ∈ workLayout.fields,
      Holds field ((workRow number small).contents field.column.text) := by
    intro number small field inside
    simp only [workLayout, List.mem_cons, List.not_mem_nil, or_false] at inside
    rcases inside with rfl | rfl | rfl | rfl
    · exact ⟨rfl, by rintro _ ⟨⟩⟩
    · exact ⟨rfl, by rintro _ ⟨⟩⟩
    · trivial
    · exact ⟨rfl, by rintro _ ⟨⟩⟩
  constructor
  · intro row inside
    simp only [workRows, List.mem_cons, List.not_mem_nil, or_false] at inside
    rcases inside with rfl | rfl
    · exact holds 1 _
    · exact holds 2 _
  · unfold Keyed
    decide
  · decide

theorem workRow_transfers (number : Nat) (small : number < 256) :
    Transfers workCompiler roundingSession pointless workLayout (workRow number small) := by
  constructor
  · intro field inside
    simp only [workLayout, List.mem_cons, List.not_mem_nil, or_false] at inside
    rcases inside with rfl | rfl | rfl | rfl
    · trivial
    · trivial
    · exact ⟨rfl, rfl⟩
    · trivial
  · intro values _
    rfl

theorem workRow_written (number : Nat) (small : number < 256) :
    ∃ line, exportLine roundingSession pointless workLayout (workRow number small) = some line :=
  ⟨_, rfl⟩

theorem workTables_exported : ∃ lines, Exported workCompiler roundingSession pointless workTables
    "tenant" [("workspace", "main")] ["structured:example.work"] [workSelection] workTables
    lines := by
  obtain ⟨lines, written⟩ : ∃ lines, ([workSelection].flatMap fun entry =>
      (workTables entry.1).map fun row => (entry.1, row)).mapM
        (fun item => exportLine roundingSession pointless item.1 item.2) = some lines := by
    apply mapM_some_exists
    intro item listed
    have shape : item = (workLayout, workRow 1 (by decide)) ∨
        item = (workLayout, workRow 2 (by decide)) := by
      simpa [workSelection, workTables_rows, workRows] using listed
    rcases shape with rfl | rfl
    · exact workRow_written 1 _
    · exact workRow_written 2 _
  refine ⟨lines, rfl, ?_, written⟩
  intro entry listed
  cases List.mem_singleton.mp listed
  rw [workSelection, workTables_rows]
  have chosen : workRows.filter (InScope [("__tenant", "tenant"), ("__scope_workspace", "main")] ·) =
      workRows := rfl
  rw [chosen]

theorem workTables_transfer : ∀ layout ∈ [workSelection].map Prod.fst,
    ∀ row ∈ workTables layout, Transfers workCompiler roundingSession pointless layout row := by
  intro layout listed row inside
  cases List.mem_singleton.mp listed
  rw [workSelection, workTables_rows] at inside
  simp only [workRows, List.mem_cons, List.not_mem_nil, or_false] at inside
  rcases inside with rfl | rfl
  · exact workRow_transfers 1 _
  · exact workRow_transfers 2 _

def copyOwners : List (String × String) := [("__tenant", "other"), ("__scope_workspace", "copy")]

theorem copyOwners_found :
    importScope workCompiler "other" [("workspace", "copy")] = .ok copyOwners := rfl

theorem workTables_fit : ∀ layout ∈ [workSelection].map Prod.fst,
    (resourceTables workCompiler.settings).fits layout (workTables layout) = true := by
  intro layout listed
  cases List.mem_singleton.mp listed
  rfl

theorem workTables_elsewhere : ∀ layout ∈ [workSelection].map Prod.fst,
    ∀ record ∈ workTables layout, ¬ InScope copyOwners record := by
  intro layout listed record inside
  cases List.mem_singleton.mp listed
  rw [workSelection, workTables_rows] at inside
  simp only [workRows, List.mem_cons, List.not_mem_nil, or_false] at inside
  rcases inside with rfl | rfl <;> decide

theorem work_copied : ∃ lines after,
    importAll workCompiler roundingSession pointless untested "other" [("workspace", "copy")]
      workTables lines = some after ∧
    Transferred [workLayout] copyOwners workTables workTables after ∧
    ∀ items, lines.mapM (importedRecord workCompiler roundingSession pointless untested
      copyOwners) = some items → (items.map fun item =>
        (item.1, recordKey (primaryKey workCompiler.settings item.1) item.2)).Nodup := by
  obtain ⟨lines, exported⟩ := workTables_exported
  have imported : ∃ after, importAll workCompiler roundingSession pointless untested "other"
      [("workspace", "copy")] workTables lines = some after ∧ _ :=
    transferred_of_transfers (by decide) rfl workTables_stored exported (by decide)
      copyOwners_found workTables_fit workTables_elsewhere workTables_transfer
  obtain ⟨after, imports, transferred⟩ := imported
  refine ⟨lines, after, imports, transferred, ?_⟩
  intro items made
  exact exported_distinct (by decide) workTables_stored exported (by decide) copyOwners_found
    workTables_transfer made

theorem work_imported_again : ∃ lines after,
    importAll workCompiler roundingSession pointless untested "other" [("workspace", "copy")]
      workTables lines = some after ∧
    importAll workCompiler roundingSession pointless untested "other" [("workspace", "copy")]
      after lines = some after ∧ (after workLayout).length = 4 := by
  obtain ⟨lines, after, imports, transferred, distinct⟩ := work_copied
  obtain ⟨copies, table, each⟩ := transferred.copied workLayout (List.mem_singleton.mpr rfl)
  refine ⟨lines, after, imports, imported_again copyOwners_found distinct imports, ?_⟩
  rw [table, List.length_append, each.length_eq, workTables_rows]
  rfl

theorem work_isolated : ∃ lines after,
    importAll workCompiler roundingSession pointless untested "other" [("workspace", "copy")]
      workTables lines = some after ∧ (after workLayout).length = 4 ∧
    (after workLayout).filter (fun row => ¬ InScope copyOwners row) = workRows := by
  obtain ⟨lines, after, imports, transferred, _⟩ := work_copied
  obtain ⟨copies, table, each⟩ := transferred.copied workLayout (List.mem_singleton.mpr rfl)
  refine ⟨lines, after, imports, ?_, ?_⟩
  · rw [table, List.length_append, each.length_eq, workTables_rows]
    rfl
  · rw [imports_isolated (by decide) copyOwners_found imports, workTables_rows]
    rfl

end Work

end MeridianPostgreSQL.Migration
