import MeridianPostgreSQL.Foundation.LockedRecords
import MeridianPostgreSQL.Query.RecordVersions

/-! # Lost updates

A request that names the version it has read, among the structured requests of
other clients. A version can only come back through a deletion. -/

namespace MeridianPostgreSQL.Query

open Settings
open VersionedRecords

/-- A structured request for a record. -/
structure Request where
  method : Method
  input : Json.Object
  context : OperationContext

namespace Request

variable (compiler : DMLCompiler) (layout : ResourceLayout)

/-- The mutation of a put, a patch or a delete. -/
def mutation (request : Request) : Compiled Mutation :=
  match request.method with
  | .put => compiler.putMutation layout request.context request.input
  | .patch => compiler.patchMutation layout request.context request.input
  | .delete => compiler.deleteMutation layout request.context request.input
  | _ => .error (.type "the request does not change a record")

def expectedVersion (request : Request) : Option Json := member request.input "expectedVersion"

/-- What an accepted request does to the record of a key is what its statement
does in a table that holds the record. -/
def Acts {Value : Type} [DecidableEq Value] (engine : Engine Value) (key : List Value)
    (request : Request) (current next : Option (Record Value)) : Prop :=
  ∃ mutation, request.mutation compiler layout = .ok mutation ∧ ∃ before after,
    Keyed (primaryKey compiler.settings layout) before ∧
    Runs engine (primaryKey compiler.settings layout) mutation before after ∧
    recordAt (primaryKey compiler.settings layout) before key = current ∧
    recordAt (primaryKey compiler.settings layout) after key = next

/-- The request is about this record. -/
def Addresses {Value : Type} (engine : Engine Value) (request : Request)
    (record : Record Value) : Prop :=
  ∃ mutation, request.mutation compiler layout = .ok mutation ∧
    mutation.Addresses engine (primaryKey compiler.settings layout) record

end Request

section Requests

variable {compiler : DMLCompiler} {layout : ResourceLayout} {request : Request}
  {mutation : Mutation}

theorem mutation_emitted (compiled : request.mutation compiler layout = .ok mutation) :
    Emits compiler layout mutation := by
  unfold Request.mutation at compiled
  split at compiled
  · exact .put compiled
  · exact .patch compiled
  · exact .delete compiled
  · exact nomatch compiled

theorem single_mutation {compiled : Compiled DMLCommand} {emitted : Compiled Mutation}
    {commands : List DMLCommand} (same : compiled.map DMLCommand.statement =
      emitted.map (Mutation.statement compiler layout))
    (mapped : compiled.map (fun command => [command]) = .ok commands) :
    ∃ mutation, emitted = .ok mutation ∧
      commands.map DMLCommand.statement = [mutation.statement compiler layout] := by
  rcases map_eq_ok mapped with ⟨command, accepted, rfl⟩
  rcases mutation_of_command same accepted with ⟨mutation, ok, text⟩
  exact ⟨mutation, ok, by rw [List.map_singleton, text]⟩

/-- An accepted request is compiled to the statement of its mutation. -/
theorem request_compiled {canonical : String} {commands : List DMLCommand}
    (found : compiler.settings.layout canonical = some layout)
    (changes : request.method = .put ∨ request.method = .patch ∨ request.method = .delete)
    (compiled : compiler.compile request.method canonical request.input request.context =
      .ok commands) : ∃ mutation, request.mutation compiler layout = .ok mutation ∧
    commands.map DMLCommand.statement = [mutation.statement compiler layout] := by
  rcases request with ⟨method, input, context⟩
  unfold DMLCompiler.compile at compiled
  rw [found] at compiled
  split at compiled
  · exact nomatch compiled
  · rcases changes with rfl | rfl | rfl
    · exact single_mutation (compiler.put_eq layout context input) compiled
    · exact single_mutation (compiler.patch_eq layout context input) compiled
    · exact single_mutation (compiler.delete_eq layout context input) compiled

/-- The version that a statement compares. -/
def Mutation.expected : Mutation → Option Json
  | .update _ _ expected => expected
  | .delete _ expected => expected
  | _ => none

def Mutation.isImport : Mutation → Bool
  | .importRow _ _ _ _ _ => true
  | _ => false

theorem recordMutation_expected {mode : PutMode} {expected : Option Json}
    {data : Json.Object} {context : OperationContext}
    (compiled : compiler.recordMutation layout context mode expected data = .ok mutation) :
    mutation.expected = expected ∧ mutation.isImport = false := by
  rcases bind_eq_ok compiled with ⟨scope, _, compiled⟩
  rcases bind_eq_ok compiled with ⟨values, _, compiled⟩
  cases expected with
  | some expected =>
      unfold DMLCompiler.conditionalPutMutation at compiled
      dsimp only at compiled
      split at compiled
      · exact nomatch compiled
      · rcases bind_eq_ok compiled with ⟨changes, _, compiled⟩
        rcases bind_eq_ok compiled with ⟨condition, _, compiled⟩
        cases compiled
        exact ⟨rfl, rfl⟩
  | none =>
      rcases bind_eq_ok compiled with ⟨keys, _, compiled⟩
      cases mode with
      | update =>
          rcases bind_eq_ok compiled with ⟨changes, _, compiled⟩
          rcases bind_eq_ok compiled with ⟨identity, _, compiled⟩
          rcases bind_eq_ok compiled with ⟨condition, _, compiled⟩
          cases compiled
          exact ⟨rfl, rfl⟩
      | upsert =>
          cases compiled
          exact ⟨rfl, rfl⟩
      | ifAbsent =>
          cases compiled
          exact ⟨rfl, rfl⟩

theorem putVersion_member {mode : PutMode} {input : Json.Object} {expected : Option Json}
    (compiled : DMLCompiler.putVersion mode input = .ok expected) :
    expected = member input "expectedVersion" := by
  unfold DMLCompiler.putVersion at compiled
  cases given : member input "expectedVersion" with
  | none =>
      rw [given] at compiled
      cases compiled
      rfl
  | some version =>
      rw [given] at compiled
      dsimp only at compiled
      by_cases absent : mode = .ifAbsent
      · rw [if_pos absent] at compiled
        cases compiled
      · rw [if_neg absent] at compiled
        cases version <;> cases compiled <;> rfl

/-- A request that expects a version compares it. -/
theorem mutation_expected (compiled : request.mutation compiler layout = .ok mutation) :
    mutation.expected = request.expectedVersion ∧ mutation.isImport = false := by
  unfold Request.mutation at compiled
  split at compiled
  · rcases bind_eq_ok compiled with ⟨mode, _, compiled⟩
    rcases bind_eq_ok compiled with ⟨expected, expectedOk, compiled⟩
    split at compiled
    · rcases bind_eq_ok compiled with ⟨_, _, compiled⟩
      rcases bind_eq_ok compiled with ⟨_, _, compiled⟩
      rw [Request.expectedVersion, ← putVersion_member expectedOk]
      exact recordMutation_expected compiled
    · exact nomatch compiled
  · unfold DMLCompiler.patchMutation at compiled
    split at compiled
    · rcases bind_eq_ok compiled with ⟨changes, _, compiled⟩
      rcases bind_eq_ok compiled with ⟨condition, _, compiled⟩
      cases compiled
      exact ⟨rfl, rfl⟩
    · exact nomatch compiled
  · unfold DMLCompiler.deleteMutation at compiled
    split at compiled
    · rcases bind_eq_ok compiled with ⟨condition, _, compiled⟩
      cases compiled
      exact ⟨rfl, rfl⟩
    · exact nomatch compiled
  · exact nomatch compiled

variable {Value : Type} {engine : Engine Value} {key : List Value} {record : Record Value}

theorem not_overwrites {keys : List String} {table : Table Value}
    (other : mutation.isImport = false) : ¬ mutation.Overwrites engine keys table := by
  cases mutation with
  | importRow => exact nomatch other
  | _ => exact id

/-- A request that names a version is about a record that has it. -/
theorem addresses_version {version : Json} (expects : request.expectedVersion = some version)
    (addresses : request.Addresses compiler layout engine record) :
    engine.versionIs version record.version = true := by
  rcases addresses with ⟨mutation, compiled, addressed⟩
  have same := (mutation_expected compiled).1.trans expects
  cases mutation with
  | update assignments condition expected =>
      cases same
      exact (Bool.and_eq_true_iff.mp addressed).2
  | delete condition expected =>
      cases same
      exact (Bool.and_eq_true_iff.mp addressed).2
  | _ => exact nomatch same

variable [DecidableEq Value]

theorem acts_step (valid : layout.check = .ok ()) {current next : Option (Record Value)}
    (acts : request.Acts compiler layout engine key current next) : Step current next := by
  rcases acts with ⟨mutation, compiled, before, after, keyed, runs, rfl, rfl⟩
  have sound := (mutation_emitted compiled).sound valid
  exact runs_disciplined sound keyed runs (not_overwrites (mutation_expected compiled).2) key

end Requests

/-! ## Lost updates -/

/-- If a request takes effect that names the version its client has read, then
the writes between the read and the request left the record as it was read, or
one of them deleted it. -/
theorem no_lost_update {compiler : DMLCompiler} {layout : ResourceLayout}
    (valid : layout.check = .ok ()) {Value Client : Type} [DecidableEq Value]
    [DecidableEq Client] {engine : Engine Value}
    (exact : ∀ {version first second}, engine.versionIs version first = true →
      engine.versionIs version second = true → first = second)
    {key : List Value} {first : Option (Record Value)}
    {seen next : Slot Client (String → Value)} {history events : List (Event Client Request)}
    (earlier : Moves (Request.Acts compiler layout engine key) ⟨first, [], none⟩ history seen)
    {client : Client} {record latest : Record Value} {version : Json}
    (read : seen.visible client = some record)
    (named : engine.versionIs version record.version = true)
    (later : Moves (Request.Acts compiler layout engine key) seen events next)
    (kept : seen.HeldBy client → rolledBack client events = false)
    {request : Request} (expects : request.expectedVersion = some version)
    (found : next.visible client = some latest)
    (effective : request.Addresses compiler layout engine latest) :
    ∃ between, next.statesOf client = between ++ seen.statesOf client ∧
      ((∀ state ∈ between, state = some record) ∨ none ∈ between) := by
  have sound := earlier.sound (acts_step valid) (Slot.sound_unlocked first [])
  have same := exact (addresses_version expects effective) named
  rcases later.unchanged (acts_step valid) sound read kept found same with
    ⟨between, states, unchanged⟩
  refine ⟨between, states, ?_⟩
  by_cases removed : none ∈ between
  · exact .inr removed
  · exact .inl (unchanged removed)

/-! ## Examples -/

def workId : List Json := [.string "tenant", .string "main", .string "x"]

def workDelete : Request := ⟨.delete, [("where", .object [("id", .string "x")])], workOperation⟩

def workCreate : Request where
  method := .put
  input := [("mode", .string "if_absent"),
    ("data", .object [("id", .string "x"), ("state", .string "ready"), ("priority", .int 1)])]
  context := workOperation

def workPatch (version : Int) : Request where
  method := .patch
  input := [("where", .object [("id", .string "x")]),
    ("changes", .object [("state", .string "done")]), ("expectedVersion", .int version)]
  context := workOperation

abbrev WorkActs : Request → Option (Record Json) → Option (Record Json) → Prop :=
  Request.Acts workCompiler workLayout workEngine workId

theorem workDelete_acts (version : Int) :
    WorkActs workDelete (some (workRecord "waiting" version)) none :=
  ⟨_, rfl, [workRecord "waiting" version], _, workRecord_keyed _ _, .delete, rfl, rfl⟩

theorem workCreate_acts : ∃ record, WorkActs workCreate none (some record) ∧
    stateOf record = (.string "ready", 1) ∧
    (workPatch 1).Addresses workCompiler workLayout workEngine record :=
  ⟨_, ⟨_, rfl, [], _, List.nodup_nil, .insert nofun, rfl, rfl⟩, rfl, _, rfl, rfl⟩

/-- The item that a client has read, in version 1. -/
def workSlot : Slot Nat (String → Json) := ⟨some (workRecord "waiting" 1), [], none⟩

/-- Another client deletes the item and creates another one. -/
def workRecreated : List (Event Nat Request) :=
  [.write 1 workDelete, .commit 1, .write 1 workCreate, .commit 1]

theorem workRecreated_moves {record : Record Json} (created : WorkActs workCreate none (some record)) :
    Moves WorkActs workSlot workRecreated ⟨some record, [some record, none], none⟩ := by
  have removal : Move WorkActs workSlot (.write 1 workDelete) (workSlot.written 1 none) :=
    .write nofun (workDelete_acts 1)
  have creation : Move WorkActs (⟨none, [none], none⟩ : Slot Nat (String → Json))
      (.write 1 workCreate) ⟨none, [none], some ⟨1, [some record], some record⟩⟩ :=
    .write nofun created
  exact .cons removal (.cons .commit (.cons creation (.cons .commit .nil)))

/-- The version that was read is there again, of another item. -/
theorem recreated_version_returns : ∃ next latest,
    Moves WorkActs workSlot workRecreated next ∧ next.visible 0 = some latest ∧
    (workPatch 1).Addresses workCompiler workLayout workEngine latest ∧
    ¬ ∃ between, next.statesOf 0 = between ++ workSlot.statesOf 0 ∧
      ∀ state ∈ between, state = some (workRecord "waiting" 1) := by
  rcases workCreate_acts with ⟨record, created, _, addressed⟩
  refine ⟨_, record, workRecreated_moves created, rfl, addressed, ?_⟩
  rintro ⟨between, states, unchanged⟩
  have same : [some record, none] = between := by
    rw [← List.append_nil between]
    exact states
  have listed : none ∈ between := by simp [← same]
  exact nomatch unchanged none listed

/-- A patch of an item that another client deleted and created again after it
was read. -/
theorem no_lost_update_work : ∃ (next : Slot Nat (String → Json)) (latest : Record Json),
    Moves WorkActs workSlot workRecreated next ∧ next.visible 0 = some latest ∧
    (workPatch 1).Addresses workCompiler workLayout workEngine latest ∧
    ∃ between, between ≠ [] ∧ next.statesOf 0 = between ++ workSlot.statesOf 0 ∧
      ((∀ state ∈ between, state = some (workRecord "waiting" 1)) ∨ none ∈ between) := by
  rcases workCreate_acts with ⟨record, created, _, addressed⟩
  have valid : workLayout.check = .ok () := by decide
  have exact : ∀ {version first second}, workEngine.versionIs version first = true →
      workEngine.versionIs version second = true → first = second := by
    intro version first second left right
    exact Json.int.inj ((of_decide_eq_true left).symm.trans (of_decide_eq_true right))
  have read : workSlot.visible 0 = some (workRecord "waiting" 1) := rfl
  have later := workRecreated_moves created
  obtain ⟨between, states, kept⟩ := no_lost_update valid exact .nil read rfl later
    (fun _ => rfl) rfl rfl addressed
  have same : [some record, none] = between := by
    rw [← List.append_nil between]
    exact states
  exact ⟨_, record, later, rfl, addressed, between, same ▸ List.cons_ne_nil _ _, states, kept⟩

end MeridianPostgreSQL.Query
