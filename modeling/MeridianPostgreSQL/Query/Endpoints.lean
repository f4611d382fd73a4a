import MeridianPostgreSQL.Query.StoredText
import MeridianPostgreSQL.Query.TraversalBounds

/-! # Ends of a relation

The texts that a relation table holds of its ends, and those that a traversal
is started with. -/

namespace MeridianPostgreSQL.Query

open Settings

/-! ## References -/

structure RecordReference where
  collection : ResourceRef
  recordId : Json

/-- `to_dict` -/
def RecordReference.toJson (reference : RecordReference) : Json :=
  .object [("collectionRef", .object [("catalog", .string reference.collection.catalog),
      ("namespace", .string reference.collection.namespaceName),
      ("name", .string reference.collection.name)]),
    ("recordId", reference.recordId)]

/-! ## Generated columns -/

/-- `value -> 'name'` -/
def arrow (value : Json) (name : String) : Option Json :=
  match value with
  | .object members => Json.get members name
  | _ => none

section Columns

variable (spell : Rat → List Char)

/-- `value ->> 'name'` -/
def arrowText (value : Option Json) (name : String) : Option String :=
  match value.bind fun value => arrow value name with
  | some .null => none
  | some (.string text) => some text
  | some value => some (storedText spell value)
  | none => none

/-- `__source_collection` or `__target_collection`, of the endpoint of a relation. -/
def collectionText (endpoint : Json) : Option String := do
  let reference := arrow endpoint "collectionRef"
  let catalog ← arrowText spell reference "catalog"
  let namespaceName ← arrowText spell reference "namespace"
  let name ← arrowText spell reference "name"
  some (catalog ++ ":" ++ namespaceName ++ "." ++ name)

/-- `__source_record_id` or `__target_record_id`. -/
def recordIdText (endpoint : Json) : Option String :=
  (arrow endpoint "recordId").map (storedText spell)

theorem collectionText_reference (reference : RecordReference) :
    collectionText spell reference.toJson = some reference.collection.canonical := rfl

theorem recordIdText_reference (reference : RecordReference) :
    recordIdText spell reference.toJson = some (storedText spell reference.recordId) := rfl

end Columns

/-! ## Starts -/

namespace PostgreSQLQueryTranslator

variable {translator : PostgreSQLQueryTranslator} {context : TranslationContext}
  {compiled : CompiledQuery}

theorem compileTraversal_statement {operation : QueryOperation} {traversal : Traversal}
    (accepted : translator.compileTraversal operation traversal context = .ok compiled) :
    ∃ edges, traversal.relationCollections.zipIdx.mapM (fun ref =>
        translator.edgeParts traversal ref.1 ref.2) = .ok edges ∧
      compiled.statement = translator.traversalStatement operation traversal edges.flatten := by
  rcases compileTraversal_cases accepted with ⟨edges, edgesOk, rfl⟩
  exact ⟨edges, edgesOk, rfl⟩

theorem startId_mem (translator : PostgreSQLQueryTranslator) (operation : QueryOperation)
    (traversal : Traversal) (edges : List QueryStatement) :
    (⟨.startId, .string (dumps translator.spell traversal.startId)⟩ : Parameter Origin Json) ∈
      (translator.traversalStatement operation traversal edges).parameters := by
  simp [traversalStatement]

/-- A traversal starts where the edges of the record do. -/
def StartsAt (translator : PostgreSQLQueryTranslator) (reference : RecordReference)
    (compiled : CompiledQuery) : Prop :=
  ∀ parameter ∈ compiled.statement.parameters,
    (parameter.origin = .startCollection → some parameter.value =
      (collectionText translator.spell reference.toJson).map .string) ∧
    (parameter.origin = .startId → some parameter.value =
      (recordIdText translator.spell reference.toJson).map .string)

/-- The texts that a traversal is started with are those of the ends of the
start's edges exactly when Python and the server print its identity alike. -/
theorem start_texts_iff {plan : Plan} {traversal : Traversal} {reference : RecordReference}
    (spells : SpellsNumbers translator.spell)
    (accepted : translator.compile plan context = .ok compiled)
    (full : plan.emptyResult = false) (walks : plan.operation.kind = .traverse)
    (given : plan.operation.traversal = some traversal)
    (collection : traversal.startCollection = reference.collection.canonical)
    (recordId : traversal.startId = reference.recordId) :
    translator.StartsAt reference compiled ↔
      PrintsAlike translator.spell reference.recordId := by
  have supplied := compile_plan_supplied accepted
  rw [← dumps_eq_iff spells]
  constructor
  · intro starts
    rcases compile_cases accepted with ⟨empty, _⟩ | ⟨_, _, other, found, walked⟩ | ⟨_, selects, _⟩
    · exact nomatch full.symm.trans empty
    · cases given.symm.trans found
      obtain ⟨edges, _, same⟩ := compileTraversal_statement walked
      have equal := (starts _ (same ▸ startId_mem translator plan.operation traversal _)).2 rfl
      rw [recordIdText_reference, recordId] at equal
      simpa using equal
    · exact absurd walks selects
  · rintro alike ⟨origin, value⟩ listed
    have held : Supplies translator plan.operation origin value :=
      supplied.values ⟨origin, value⟩ listed
    refine ⟨?_, ?_⟩
    · rintro rfl
      cases held with
      | startCollection found =>
          cases given.symm.trans found
          rw [collectionText_reference, collection]
          rfl
    · rintro rfl
      cases held with
      | startId found =>
          cases given.symm.trans found
          rw [recordIdText_reference, ← alike, recordId]
          rfl

/-! ## Starts of follows -/

def workStart (recordId : Json) : RecordReference := ⟨workLayout.ref, recordId⟩

theorem followsTranslator_spells : SpellsNumbers followsTranslator.spell := fun _ _ => nofun

theorem followsPlan_starts : ∃ compiled,
    followsTranslator.compile (followsPlan (.string "first") 5) workContext = .ok compiled ∧
      followsTranslator.StartsAt (workStart (.string "first")) compiled := by
  have given : (followsPlan (.string "first") 5).operation.traversal =
    some (followsTraversal (.string "first")) := rfl
  have collection : (followsTraversal (.string "first")).startCollection =
    (workStart (.string "first")).collection.canonical := rfl
  obtain ⟨compiled, accepted⟩ : ∃ compiled,
      followsTranslator.compile (followsPlan (.string "first") 5) workContext = .ok compiled :=
    ⟨_, rfl⟩
  have starts :=
    start_texts_iff followsTranslator_spells accepted rfl rfl given collection rfl
  exact ⟨compiled, accepted, starts.mpr (.string (by simp))⟩

/-- An identity with an accent is started with in another text. -/
theorem followsPlan_accent : ∃ compiled,
    followsTranslator.compile (followsPlan (.string "é") 5) workContext = .ok compiled ∧
      recordIdText followsTranslator.spell (workStart (.string "é")).toJson = some "\"é\"" ∧
      ¬followsTranslator.StartsAt (workStart (.string "é")) compiled := by
  refine ⟨_, rfl, by decide, ?_⟩
  intro starts
  have started := (starts _ (startId_mem _ _ _ _)).2 rfl
  revert started
  decide

end PostgreSQLQueryTranslator

end MeridianPostgreSQL.Query
