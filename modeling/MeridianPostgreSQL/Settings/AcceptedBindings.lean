import MeridianPostgreSQL.Settings.Bindings

/-! # Accepted Bindings

The settings that the parser makes of a Binding pass every check of the layouts. -/

namespace MeridianPostgreSQL.Bindings

open Settings

section Parsed

variable {α : Type} {path : String} {result : Parsed α} {value : α}

theorem under_ok : under path result = .ok value ↔ result = .ok value := by
  cases result with
  | error error => exact ⟨nofun, nofun⟩
  | ok found => exact Iff.rfl

theorem mapM_accepted {β : Type} {f : α → Parsed β} :
    ∀ {items : List α} {results : List β}, items.mapM f = .ok results →
      ∀ result ∈ results, ∃ item ∈ items, f item = .ok result
  | [], results, accepted => by
      rw [List.mapM_nil] at accepted
      rw [← Except.ok.inj accepted]
      exact nofun
  | item :: rest, results, accepted => by
      rw [List.mapM_cons] at accepted
      obtain ⟨first, head, accepted⟩ := accepted_bind accepted
      obtain ⟨others, tail, accepted⟩ := accepted_bind accepted
      rw [← Except.ok.inj accepted]
      intro result listed
      rcases List.mem_cons.mp listed with rfl | later
      · exact ⟨item, List.mem_cons_self, head⟩
      · obtain ⟨source, member, parsed⟩ := mapM_accepted tail result later
        exact ⟨source, List.mem_cons_of_mem item member, parsed⟩

theorem forM_accepted {β : Type} {f : β → Except String Unit} :
    ∀ {items : List β}, (∀ item ∈ items, f item = .ok ()) → items.forM f = .ok ()
  | [], _ => rfl
  | item :: rest, each => by
      have tail := @forM_accepted β f rest fun other later =>
        each other (List.mem_cons_of_mem item later)
      change (f item >>= fun _ => rest.forM f) = .ok ()
      rw [each item List.mem_cons_self]
      exact tail

end Parsed

/-! ## Layouts -/

theorem fieldName_nonempty {value : Json} {text : String} (accepted : fieldNameOf value = .ok text) :
    text ≠ "" := by
  unfold fieldNameOf at accepted
  split at accepted
  · split at accepted
    · exact nomatch accepted
    · rename_i nonempty
      rwa [← Except.ok.inj accepted]
  · exact nomatch accepted

theorem field_check {value : Json} {field : FieldLayout}
    (accepted : FieldLayout.fromJson value = .ok field) (path : String) :
    field.check path = .ok () := by
  obtain ⟨item, _, accepted⟩ := accepted_bind accepted
  obtain ⟨name, named, accepted⟩ := accepted_bind accepted
  obtain ⟨kind, _, accepted⟩ := accepted_bind accepted
  obtain ⟨nullable, _, accepted⟩ := accepted_bind accepted
  obtain ⟨changes, _, accepted⟩ := accepted_bind accepted
  obtain ⟨cardinality, _, accepted⟩ := accepted_bind accepted
  obtain ⟨precision, _, accepted⟩ := accepted_bind accepted
  obtain ⟨scale, _, accepted⟩ := accepted_bind accepted
  obtain ⟨_, checked, accepted⟩ := accepted_bind accepted
  obtain ⟨column, _, accepted⟩ := accepted_bind accepted
  rw [← Except.ok.inj accepted]
  unfold FieldLayout.check
  rw [if_neg (fieldName_nonempty named)]
  unfold checkDecimal at checked
  split at checked
  · rename_i decimal
    rw [if_pos decimal]
    split at checked
    · split at checked
      · rename_i bounds
        exact if_pos bounds
      · exact nomatch checked
    · exact nomatch checked
  · rename_i other
    rw [if_neg other]
    split at checked
    · exact nomatch checked
    · rename_i absent
      exact if_neg absent

theorem index_check {value : Json} {index : IndexLayout}
    (accepted : IndexLayout.fromJson value = .ok index) (path : String) :
    index.check path = .ok () := by
  obtain ⟨item, _, accepted⟩ := accepted_bind accepted
  obtain ⟨kind, _, accepted⟩ := accepted_bind accepted
  obtain ⟨entries, _, accepted⟩ := accepted_bind accepted
  obtain ⟨fields, _, accepted⟩ := accepted_bind accepted
  obtain ⟨_, named, accepted⟩ := accepted_bind accepted
  obtain ⟨unique, _, accepted⟩ := accepted_bind accepted
  obtain ⟨_, ordered, accepted⟩ := accepted_bind accepted
  obtain ⟨name, _, accepted⟩ := accepted_bind accepted
  rw [← Except.ok.inj accepted]
  unfold checkIndexFields at named
  unfold checkUnique at ordered
  unfold IndexLayout.check
  split at named
  · exact nomatch named
  · rename_i fieldsOk
    rw [if_neg fieldsOk]
    split at ordered
    · exact nomatch ordered
    · rename_i uniqueOk
      exact if_neg uniqueOk

theorem endpointFields_differ {source target : Json} {fields : String × String}
    (accepted : endpointFields source target = .ok fields) : fields.1 ≠ fields.2 := by
  unfold endpointFields at accepted
  split at accepted
  · split at accepted
    · exact nomatch accepted
    · rename_i different
      rwa [← Except.ok.inj accepted]
  · exact nomatch accepted

theorem relation_check {core : Core} {value : Json} {relation : RelationLayout}
    (accepted : RelationLayout.fromJson core value = .ok relation) (path : String) :
    relation.check path = .ok () := by
  obtain ⟨item, _, accepted⟩ := accepted_bind accepted
  obtain ⟨fields, named, accepted⟩ := accepted_bind accepted
  obtain ⟨directed, _, accepted⟩ := accepted_bind accepted
  obtain ⟨sources, _, accepted⟩ := accepted_bind accepted
  obtain ⟨targets, _, accepted⟩ := accepted_bind accepted
  obtain ⟨_, _, accepted⟩ := accepted_bind accepted
  obtain ⟨_, checked, accepted⟩ := accepted_bind accepted
  rw [← Except.ok.inj accepted]
  unfold RelationLayout.check
  rw [if_neg (endpointFields_differ named)]
  unfold checkCollections at checked
  split at checked
  · exact nomatch checked
  · rename_i unique
    exact if_neg unique

theorem optionalRelation_check {core : Core} {value : Json} {relation : Option RelationLayout}
    (accepted : optionalRelation core value = .ok relation) (path : String) :
    (relation.forM fun relation => relation.check path) = .ok () := by
  unfold optionalRelation at accepted
  split at accepted
  · rw [← Except.ok.inj accepted]
    rfl
  · cases parsed : under ".relation" (RelationLayout.fromJson core value) with
    | error error =>
        rw [parsed] at accepted
        exact nomatch accepted
    | ok found =>
        rw [parsed] at accepted
        rw [← Except.ok.inj accepted]
        exact relation_check (under_ok.mp parsed) path

/-- What is parsed entry by entry passes its checks, wherever it is listed. -/
theorem entries_check {β : Type} (parse : Json → Parsed β) (location : Nat → String)
    (check : String → β → Except String Unit)
    (each : ∀ value result path, parse value = .ok result → check path result = .ok ())
    {entries : List Json} {results : List β}
    (accepted : entries.zipIdx.mapM (fun entry => under (location entry.2) (parse entry.1)) =
      .ok results) (path : Nat → String) :
    (results.zipIdx.forM fun entry => check (path entry.2) entry.1) = .ok () := by
  refine forM_accepted fun entry listed => ?_
  obtain ⟨item, _, parsed⟩ := mapM_accepted accepted entry.1 (List.fst_mem_of_mem_zipIdx listed)
  exact each item.1 entry.1 _ (under_ok.mp parsed)

/-- A parsed layout passes its checks, wherever it is listed. -/
theorem layout_check {core : Core} {value : Json} {layout : ResourceLayout}
    (accepted : ResourceLayout.fromJson core value = .ok layout) (path : String) :
    layout.fromMapping path = .ok () := by
  obtain ⟨item, _, accepted⟩ := accepted_bind accepted
  obtain ⟨fieldEntries, _, accepted⟩ := accepted_bind accepted
  obtain ⟨fields, parsedFields, accepted⟩ := accepted_bind accepted
  obtain ⟨indexEntries, _, accepted⟩ := accepted_bind accepted
  obtain ⟨indexes, parsedIndexes, accepted⟩ := accepted_bind accepted
  obtain ⟨identityEntries, _, accepted⟩ := accepted_bind accepted
  obtain ⟨identity, _, accepted⟩ := accepted_bind accepted
  obtain ⟨ref, _, accepted⟩ := accepted_bind accepted
  obtain ⟨table, _, accepted⟩ := accepted_bind accepted
  obtain ⟨profile, _, accepted⟩ := accepted_bind accepted
  obtain ⟨schema, _, accepted⟩ := accepted_bind accepted
  obtain ⟨resource, _, accepted⟩ := accepted_bind accepted
  obtain ⟨relation, parsedRelation, accepted⟩ := accepted_bind accepted
  obtain ⟨_, checked, accepted⟩ := accepted_bind accepted
  rw [← Except.ok.inj accepted]
  have fieldsOk := entries_check FieldLayout.fromJson (fun index => s!".fields[{index}]")
    FieldLayout.check (fun _ _ path parsed => field_check parsed path) parsedFields
    fun index => s!"{path}.fields[{index}]"
  have indexesOk := entries_check IndexLayout.fromJson (fun index => s!".indexes[{index}]")
    IndexLayout.check (fun _ _ path parsed => index_check parsed path) parsedIndexes
    fun index => s!"{path}.indexes[{index}]"
  have relationOk := optionalRelation_check parsedRelation s!"{path}.relation"
  unfold ResourceLayout.fromMapping
  dsimp only
  rw [fieldsOk, indexesOk, relationOk]
  cases passed : ResourceLayout.check _ with
  | error error =>
      rw [passed] at checked
      exact nomatch checked
  | ok _ => rfl

/-! ## Settings -/

theorem scopeKeys_nodup {value : Json} {keys : List Identifier}
    (accepted : scopeKeys value = .ok keys) : keys.Nodup := by
  obtain ⟨_, _, accepted⟩ := accepted_bind accepted
  obtain ⟨parsed, _, accepted⟩ := accepted_bind accepted
  dsimp only at accepted
  split at accepted
  · exact nomatch accepted
  · rename_i unique
    rw [← Except.ok.inj accepted]
    exact not_not.mp unique

/-- What is known of accepted layouts. -/
structure AcceptedLayouts (core : Core) (found : List ResourceLayout) : Prop where
  listed : found ≠ []
  refs : (found.map fun layout => layout.ref.canonical).Nodup
  tables : (found.map ResourceLayout.table).Nodup
  parsed : ∀ layout ∈ found, ∃ value, ResourceLayout.fromJson core value = .ok layout

theorem layouts_accepted {core : Core} {value : Json} {found : List ResourceLayout}
    (accepted : layouts core value = .ok found) : AcceptedLayouts core found := by
  obtain ⟨entries, _, accepted⟩ := accepted_bind accepted
  obtain ⟨parsed, each, accepted⟩ := accepted_bind accepted
  split at accepted
  · exact nomatch accepted
  · rename_i unique
    split at accepted
    · exact nomatch accepted
    · rename_i tables
      rw [← Except.ok.inj accepted]
      rw [not_or, not_not] at unique
      refine ⟨unique.1, unique.2, not_not.mp tables, fun layout member => ?_⟩
      obtain ⟨entry, _, found⟩ := mapM_accepted each layout member
      exact ⟨entry.1, under_ok.mp found⟩

/-- Accepted settings pass the checks of their layouts. -/
theorem fromBinding_check {core : Core} {binding : Binding} {bound : BoundSettings}
    (accepted : fromBinding core binding = .ok bound) : bound.settings.check = .ok () := by
  obtain ⟨_, _, accepted⟩ := accepted_bind accepted
  obtain ⟨raw, _, accepted⟩ := accepted_bind accepted
  obtain ⟨_, _, accepted⟩ := accepted_bind accepted
  obtain ⟨keys, parsedKeys, accepted⟩ := accepted_bind accepted
  obtain ⟨found, parsedLayouts, accepted⟩ := accepted_bind accepted
  obtain ⟨proofs, _, accepted⟩ := accepted_bind accepted
  obtain ⟨standbys, _, accepted⟩ := accepted_bind accepted
  obtain ⟨application, _, accepted⟩ := accepted_bind accepted
  obtain ⟨schema, _, accepted⟩ := accepted_bind accepted
  rw [← Except.ok.inj accepted]
  have known := layouts_accepted parsedLayouts
  have sorted := sortedBy_perm (fun layout : ResourceLayout => layout.ref.canonical) found
  have nonempty : sortedBy (fun layout => layout.ref.canonical) found ≠ [] :=
    fun empty => known.listed (List.nil_perm.mp (empty ▸ sorted.symm).symm)
  have refs := (sorted.map fun layout => layout.ref.canonical).nodup_iff.mpr known.refs
  have tables := (sorted.map ResourceLayout.table).nodup_iff.mpr known.tables
  have each : ((sortedBy (fun layout => layout.ref.canonical) found).zipIdx.forM fun entry =>
      entry.1.fromMapping s!"binding.settings.resources[{entry.2}]") = .ok () := by
    refine forM_accepted fun entry listed => ?_
    have member := sorted.mem_iff.mp (List.fst_mem_of_mem_zipIdx listed)
    obtain ⟨value, parsed⟩ := known.parsed entry.1 member
    exact layout_check parsed _
  unfold PostgreSQLSettings.check
  dsimp only
  rw [if_neg (not_not.mpr (scopeKeys_nodup parsedKeys)), each]
  change (if _ then _ else if _ then _ else _) = _
  rw [if_neg (not_or.mpr ⟨nonempty, not_not.mpr refs⟩), if_neg (not_not.mpr tables)]

end MeridianPostgreSQL.Bindings
