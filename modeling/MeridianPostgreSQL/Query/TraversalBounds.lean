import MeridianPostgreSQL.Query.Pages

/-! # Bounds of a traversal

How many paths a response holds, of those that a walk finds. The statement is
limited by the page and by the budget, and the response by the page alone. -/

namespace MeridianPostgreSQL.Query

open Settings

/-! ## A relation between items of work -/

theorem isIdentifier_source : isIdentifier "source" = true := by decide

def followsLayout : ResourceLayout where
  ref := ⟨"structured", "example", "follows"⟩
  table := ⟨"follows", by decide⟩
  profile := "relation"
  schemaFingerprint := "follows-schema-v1"
  resourceFingerprint := "follows-resource-v1"
  fields := [
    ⟨"id", ⟨"id", isIdentifier_id⟩, .uuid, false, false, .one, none, none⟩,
    ⟨"source", ⟨"source", isIdentifier_source⟩, .recordRef, false, false, .one, none, none⟩,
    ⟨"target", ⟨"target", by decide⟩, .recordRef, false, false, .one, none, none⟩]
  identity := ["id"]
  indexes := []
  relation := some ⟨"source", "target", true, ["structured:example.work"],
    ["structured:example.work"]⟩

def followsSettings : PostgreSQLSettings :=
  { workSettings with resources := [workLayout, followsLayout] }

example : followsSettings.check = .ok () := by decide

namespace PostgreSQLQueryTranslator

def followsTranslator : PostgreSQLQueryTranslator :=
  { workTranslator with settings := followsSettings }

/-- The walks of one to two steps from an item of work. -/
def followsTraversal (startId : Json) : Traversal where
  relationCollections := ["structured:example.follows"]
  resolved := true
  allNeighbors := false
  registryFingerprint := none
  recordFilter := none
  relationPredicates := []
  direction := .outbound
  minDepth := 1
  maxDepth := 2
  startCollection := "structured:example.work"
  startId := startId

def followsPlan (startId : Json) (maxReturnedPaths : Nat) : Plan :=
  { workScan priority with operation := { (workScan priority).operation with
      kind := .traverse, filter := none, traversal := some (followsTraversal startId)
      budget := { (workScan priority).operation.budget with
        maxReturnedPaths := maxReturnedPaths } } }

/-! ## Paths of a response -/

variable {translator : PostgreSQLQueryTranslator} {context : TranslationContext}
  {compiled : CompiledQuery}

theorem min_taken_iff {α : Type} (rows : List α) (page limit : Nat) :
    ((rows.take (min page limit + 1)).take page).length ≤ min page limit ↔
      page ≤ limit ∨ rows.length ≤ limit := by
  rw [List.length_take, List.length_take]
  omega

theorem uncursored_normal {operation : QueryOperation} {bound : Option Nat} {raw : List Row}
    (uncursored : Uncursored operation bound compiled) :
    translator.normalizeResult compiled raw =
      .ok ⟨.records ((raw.take operation.page.size).map compiled.visible), none,
        pageProvenance⟩ := by
  rw [normalizeResult_eq uncursored.empty,
    nextCursor_none (.inr (.inr uncursored.cursorFields)), uncursored.single,
    uncursored.pageSize]
  rfl

variable (translator) in
theorem normalizeResult_nil_ok (compiled : CompiledQuery) :
    ∃ result, translator.normalizeResult compiled [] = .ok result := by
  cases full : compiled.empty with
  | true => exact ⟨_, if_pos full⟩
  | false =>
      rw [normalizeResult_eq full, nextCursor_none (.inr (.inl List.take_nil))]
      exact ⟨_, rfl⟩

/-- A traversal is answered, with no more paths than page and budget allow
exactly when the page is the smaller bound or the budget covers all paths. -/
theorem traversal_bound_iff {plan : Plan} {server : QueryServer} {raw : List Row}
    (accepted : translator.compile plan context = .ok compiled)
    (walks : plan.operation.kind = .traverse)
    (answered : server.answer compiled.statement = some raw) :
    ∃ result, translator.normalizeResult compiled raw = .ok result ∧
      (result.rows.length ≤
          min plan.operation.page.size plan.operation.budget.maxReturnedPaths ↔
        plan.operation.page.size ≤ plan.operation.budget.maxReturnedPaths ∨
          (server.produced compiled.statement).length ≤
            plan.operation.budget.maxReturnedPaths) := by
  have limited := server.limited _ _ answered
  rcases compile_cases accepted with ⟨empty, statement⟩ | ⟨full, _, traversal, _, walked⟩ |
    ⟨full, selects, _, _⟩
  · have nothing : server.produced compiled.statement = [] := statement ▸ server.falsity
    have none : raw = [] := by
      rw [limited, nothing]
      cases rowBound compiled.statement <;> simp [limitRows]
    obtain ⟨result, normal⟩ := normalizeResult_nil_ok translator compiled
    refine ⟨result, none ▸ normal, ?_⟩
    rw [normalizeResult_nil normal, nothing]
    exact iff_of_true (Nat.zero_le _) (.inr (Nat.zero_le _))
  · have uncursored := compileTraversal_uncursored walked
    refine ⟨_, uncursored_normal uncursored, ?_⟩
    rw [← min_taken_iff, limited, uncursored.bound, NormalizedQueryResult.rows,
      List.length_map]
    rfl
  · exact absurd walks selects

/-! ## More paths than the budget -/

/-- A database that finds the same paths for every walk. -/
def walkServer (rows : List Row) : QueryServer where
  produced := fun statement =>
    match statement.command with
    | [.text "SELECT NULL WHERE FALSE"] => []
    | _ => rows
  answer := fun statement =>
    match statement.command.reverse with
    | .slot .limit :: .text " LIMIT " :: .text " ORDER BY " :: _ => none
    | _ => some (limitRows (rowBound statement)
        (match statement.command with
          | [.text "SELECT NULL WHERE FALSE"] => []
          | _ => rows))
  limited := by
    intro statement rows answered
    split at answered
    · exact nomatch answered
    · exact (Option.some.inj answered).symm
  falsity := rfl
  sorted := by simp

def pathRow (recordId : String) (depth : Int) : Row :=
  [("collectionRef", .string "structured:example.work"), ("recordId", .string recordId),
    ("depth", .int depth), ("path", .array []), ("relationPath", .array [])]

/-- One item follows two others. -/
def twoPaths : List Row := [pathRow "second" 1, pathRow "third" 1]

def pagePlan : Plan := followsPlan (.string "first") 10

theorem pagePlan_answered : ∃ compiled,
    followsTranslator.compile pagePlan workContext = .ok compiled ∧
      (walkServer twoPaths).answer compiled.statement = some twoPaths :=
  ⟨_, rfl, rfl⟩

theorem traversal_bound_pages : ∃ compiled,
    followsTranslator.compile pagePlan workContext = .ok compiled ∧
      ∃ result, followsTranslator.normalizeResult compiled twoPaths = .ok result ∧
        (result.rows.length ≤
            min pagePlan.operation.page.size pagePlan.operation.budget.maxReturnedPaths ↔
          pagePlan.operation.page.size ≤ pagePlan.operation.budget.maxReturnedPaths ∨
            ((walkServer twoPaths).produced compiled.statement).length ≤
              pagePlan.operation.budget.maxReturnedPaths) := by
  obtain ⟨compiled, accepted, answered⟩ := pagePlan_answered
  exact ⟨compiled, accepted, traversal_bound_iff accepted rfl answered⟩

/-- A page of ten under a budget of one path holds two. -/
theorem budget_is_exceeded : ∃ compiled raw result,
    followsTranslator.compile (followsPlan (.string "first") 1) workContext = .ok compiled ∧
      (walkServer twoPaths).answer compiled.statement = some raw ∧
      followsTranslator.normalizeResult compiled raw = .ok result ∧
      ¬ result.rows.length ≤ min (followsPlan (.string "first") 1).operation.page.size
        (followsPlan (.string "first") 1).operation.budget.maxReturnedPaths :=
  ⟨_, _, _, rfl, rfl, rfl, by decide⟩

end PostgreSQLQueryTranslator

end MeridianPostgreSQL.Query
