import MeridianPostgreSQL.Settings.Layouts

/-! # Checked layouts

What the settings parser guarantees of the layouts it accepts. -/

namespace MeridianPostgreSQL.Settings

/-- The checks of a layout that holds data. -/
structure ResourceLayout.Checked (layout : ResourceLayout) : Prop where
  names : layout.fieldNames.Nodup
  columns : (layout.fields.map FieldLayout.column).Nodup
  identity : layout.identity ≠ [] ∧ layout.identity.Nodup ∧
    layout.identity ⊆ layout.fieldNames
  table : layout.table.text ∉ ResourceLayout.reservedTables
  owned : ∀ field ∈ layout.fields, field.column.text ∉ ResourceLayout.reservedColumns ∧
    ¬ "__scope_".toList <+: field.column.text.toList
  indexNames : (layout.indexes.map IndexLayout.name).Nodup
  indexes : layout.indexes.forM layout.checkIndex = .ok ()

theorem checked_of_check {layout : ResourceLayout} (valid : layout.check = .ok ()) :
    layout.isRegistry = true ∧ layout.table.text = "__meridian_schema_registry" ∧
      layout.fields = [] ∨ layout.isRegistry = false ∧ layout.Checked := by
  unfold ResourceLayout.check at valid
  split at valid
  · rename_i registry
    split at valid
    · exact nomatch valid
    · rename_i fixed
      simp only [not_or, not_not] at fixed
      exact .inl ⟨registry, fixed.2.1, fixed.2.2.1⟩
  · rename_i data
    split at valid
    · exact nomatch valid
    · rename_i unique
      split at valid
      · exact nomatch valid
      · rename_i identity
        split at valid
        · exact nomatch valid
        · split at valid
          · exact nomatch valid
          · rename_i table
            split at valid
            · exact nomatch valid
            · rename_i free
              split at valid
              · exact nomatch valid
              · split at valid
                · exact nomatch valid
                · rename_i indexNames
                  simp only [not_or, not_not] at unique identity
                  refine .inr ⟨eq_false_of_ne_true data, unique.1, unique.2, ?_, table, ?_, ?_, ?_⟩
                  · exact ⟨identity.1, identity.2.1, identity.2.2⟩
                  · intro field listed
                    exact ⟨fun owned => free ⟨field, listed, .inl owned⟩,
                      fun owned => free ⟨field, listed, .inr owned⟩⟩
                  · exact not_not.mp indexNames
                  · cases checked : layout.indexes.forM layout.checkIndex with
                    | error error =>
                        rw [checked] at valid
                        exact nomatch valid
                    | ok _ => rfl

section Checked

variable {layout : ResourceLayout} (valid : layout.check = .ok ())

include valid

theorem columns_nodup : (layout.fields.map FieldLayout.column).Nodup := by
  rcases checked_of_check valid with ⟨_, _, empty⟩ | ⟨_, checked⟩
  · rw [empty]
    exact List.nodup_nil
  · exact checked.columns

/-- A column that the adapter owns is no field's. -/
theorem column_not_owned {field : FieldLayout} (listed : field ∈ layout.fields) :
    field.column.text ∉ ResourceLayout.reservedColumns ∧
      ¬ "__scope_".toList <+: field.column.text.toList := by
  rcases checked_of_check valid with ⟨_, _, empty⟩ | ⟨_, checked⟩
  · rw [empty] at listed
    exact nomatch listed
  · exact checked.owned field listed

theorem column_not_scope {field : FieldLayout} (listed : field ∈ layout.fields)
    (settings : PostgreSQLSettings) : field.column.text ∉ settings.scopeColumns := by
  intro owned
  rcases List.mem_cons.mp owned with tenant | key
  · exact (column_not_owned valid listed).1 (by rw [tenant]; decide)
  · rcases List.mem_map.mp key with ⟨identifier, _, same⟩
    apply (column_not_owned valid listed).2
    rw [← same, String.toList_append]
    exact List.prefix_append _ _

end Checked

theorem field_found {layout : ResourceLayout} {name : String} {field : FieldLayout}
    (found : layout.field name = some field) : field ∈ layout.fields ∧ field.name = name := by
  have named := List.find?_some found
  exact ⟨List.mem_of_find?_eq_some found, by simpa using named⟩

/-! ## Settings -/

section Settings

variable {settings : PostgreSQLSettings}

theorem accepted_bind {α β ε : Type} {first : Except ε α} {next : α → Except ε β} {result : β}
    (accepted : first >>= next = .ok result) :
    ∃ value, first = .ok value ∧ next value = .ok result := by
  cases first with
  | error error => exact nomatch accepted
  | ok value => exact ⟨value, rfl, accepted⟩

theorem forM_ok {α ε : Type} {items : List α} {f : α → Except ε Unit}
    (accepted : items.forM f = .ok ()) : ∀ item ∈ items, f item = .ok () := by
  induction items with
  | nil => exact nofun
  | cons first rest induction =>
      have step : (f first >>= fun _ => rest.forM f) = .ok () := accepted
      rcases accepted_bind step with ⟨_, head, tail⟩
      intro item listed
      rcases List.mem_cons.mp listed with rfl | later
      · exact head
      · exact induction tail item later

/-- The guarantees of accepted settings. -/
structure PostgreSQLSettings.Checked (settings : PostgreSQLSettings) : Prop where
  scopeKeys : settings.scopeKeys.Nodup
  resources : settings.resources ≠ []
  refs : (settings.resources.map fun layout => layout.ref.canonical).Nodup
  tables : (settings.resources.map ResourceLayout.table).Nodup
  layouts : ∀ layout ∈ settings.resources, layout.check = .ok ()

theorem fromMapping_check {path : String} {layout : ResourceLayout}
    (accepted : layout.fromMapping path = .ok ()) : layout.check = .ok () := by
  rcases accepted_bind accepted with ⟨_, _, accepted⟩
  rcases accepted_bind accepted with ⟨_, _, accepted⟩
  rcases accepted_bind accepted with ⟨_, _, accepted⟩
  exact accepted

theorem settings_checked (accepted : settings.check = .ok ()) : settings.Checked := by
  unfold PostgreSQLSettings.check at accepted
  split at accepted
  · exact nomatch accepted
  · rename_i scopeKeys
    rcases accepted_bind accepted with ⟨_, each, accepted⟩
    split at accepted
    · exact nomatch accepted
    · rename_i refs
      split at accepted
      · exact nomatch accepted
      · rename_i tables
        simp only [not_or, not_not] at refs
        refine ⟨not_not.mp scopeKeys, refs.1, refs.2, not_not.mp tables, ?_⟩
        intro layout listed
        rcases List.getElem_of_mem listed with ⟨index, bound, rfl⟩
        have member : (settings.resources[index], index) ∈ settings.resources.zipIdx := by
          rw [List.mk_mem_zipIdx_iff_getElem?]
          exact List.getElem?_eq_getElem bound
        exact fromMapping_check (forM_ok each _ member)

end Settings

end MeridianPostgreSQL.Settings
