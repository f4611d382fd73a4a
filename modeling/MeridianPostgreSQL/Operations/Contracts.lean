import MeridianPostgreSQL.Operations.Compiler
import MeridianPostgreSQL.Query.Reading
import MeridianPostgreSQL.Query.RecordVersions

/-! # Contracts and commands

What the contract of an accepted request promises, and when the compiled
command keeps it. -/

namespace MeridianPostgreSQL.Operations

open Settings Query

variable {Document : Type}

inductive Effect where
  | mutation (method : Method)
  | publication
  | reading
deriving DecidableEq

/-- The effect of each method of a contract. -/
def contractEffect (method : String) : Option Effect :=
  if method = "put" then some (.mutation .put)
  else if method = "patch" then some (.mutation .patch)
  else if method = "delete" then some (.mutation .delete)
  else if method = "append" then some (.mutation .append)
  else if method = "publish_schema" then some .publication
  else if method ∈ OperationCompiler.readMethods then some .reading
  else none

/-- The mutation that a method makes of an input. -/
def Makes (compiler : DMLCompiler) (layout : ResourceLayout) (context : OperationContext)
    (input : Json.Object) (mutation : Mutation) : Method → Prop
  | .put => compiler.putMutation layout context input = .ok mutation
  | .patch => compiler.patchMutation layout context input = .ok mutation
  | .delete => compiler.deleteMutation layout context input = .ok mutation
  | .append => ∃ data, compiler.appendMutation layout context data = .ok mutation
  | .get => False
  | .atomicClaim => False

/-- A command that writes what the method makes of the request. -/
structure Mutates (compiler : DMLCompiler) (request : ExecutionRequest) (ref : ResourceRef)
    (method : Method) (command : DMLCommand) : Prop where
  named : command.method = method
  layout : compiler.settings.layout ref.canonical = some command.layout
  statement : ∃ mutation,
    Makes compiler command.layout request.context request.operation.input mutation method ∧
      command.statement = mutation.statement compiler command.layout

/-- The command has the effect on the request's Resources. -/
def AdapterCommand.Has (compiler : OperationCompiler Document) (request : ExecutionRequest) :
    AdapterCommand Document → Effect → Prop
  | .dml commands, .mutation method => ∃ ref, request.operation.resources = [ref] ∧
      commands ≠ [] ∧ ∀ command ∈ commands, Mutates compiler.dml request ref method command
  | .dml commands, .reading => ∀ command ∈ commands,
      command.method = .get ∧ command.statement.command.Reads
  | .query compiled, .reading => compiled.statement.command.Reads
  | .publish _, .publication => True
  | _, _ => False

/-- The contract of a request and its command agree. -/
def Agrees (compiler : OperationCompiler Document) (request : ExecutionRequest)
    (command : AdapterCommand Document) : Prop :=
  ∃ method effect, OperationCompiler.contractMethod request.operation = some method ∧
    contractEffect method = some effect ∧ command.Has compiler request effect

/-- A request to change records that brings a query plan. -/
def Operation.plannedMutation (operation : Operation) : Bool :=
  operation.hasPlan && (OperationCompiler.contractMethod operation).any fun method =>
    method ∈ ["patch", "delete", "append"]

/-! ## Commands of the DML compiler -/

section Commands

variable {compiler : DMLCompiler} {request : ExecutionRequest} {ref : ResourceRef}
  {layout : ResourceLayout} {command : DMLCommand}

theorem put_mutates (found : compiler.settings.layout ref.canonical = some layout)
    (compiled : compiler.put layout request.operation.input request.context = .ok command) :
    Mutates compiler request ref .put command := by
  have same : command.method = .put ∧ command.layout = layout := by
    rcases bind_eq_ok compiled with ⟨mode, _, compiled⟩
    rcases bind_eq_ok compiled with ⟨expected, _, compiled⟩
    split at compiled
    · rcases bind_eq_ok compiled with ⟨_, _, compiled⟩
      rcases bind_eq_ok compiled with ⟨_, _, compiled⟩
      rcases bind_eq_ok compiled with ⟨statement, _, compiled⟩
      cases compiled
      exact ⟨rfl, rfl⟩
    · exact nomatch compiled
  rcases mutation_of_command (compiler.put_eq layout request.context _) compiled with
    ⟨mutation, made, text⟩
  rcases same with ⟨method, rfl⟩
  exact ⟨method, found, mutation, made, text⟩

theorem patch_mutates (found : compiler.settings.layout ref.canonical = some layout)
    (compiled : compiler.patch layout request.operation.input request.context = .ok command) :
    Mutates compiler request ref .patch command := by
  have same : command.method = .patch ∧ command.layout = layout := by
    unfold DMLCompiler.patch at compiled
    split at compiled
    · rcases bind_eq_ok compiled with ⟨changes, _, compiled⟩
      rcases bind_eq_ok compiled with ⟨condition, _, compiled⟩
      cases compiled
      exact ⟨rfl, rfl⟩
    · exact nomatch compiled
  rcases mutation_of_command (compiler.patch_eq layout request.context _) compiled with
    ⟨mutation, made, text⟩
  rcases same with ⟨method, rfl⟩
  exact ⟨method, found, mutation, made, text⟩

theorem delete_mutates (found : compiler.settings.layout ref.canonical = some layout)
    (compiled : compiler.delete layout request.operation.input request.context = .ok command) :
    Mutates compiler request ref .delete command := by
  have same : command.method = .delete ∧ command.layout = layout := by
    unfold DMLCompiler.delete at compiled
    split at compiled
    · rcases bind_eq_ok compiled with ⟨condition, _, compiled⟩
      cases compiled
      exact ⟨rfl, rfl⟩
    · exact nomatch compiled
  rcases mutation_of_command (compiler.delete_eq layout request.context _) compiled with
    ⟨mutation, made, text⟩
  rcases same with ⟨method, rfl⟩
  exact ⟨method, found, mutation, made, text⟩

theorem append_mutates (found : compiler.settings.layout ref.canonical = some layout)
    {data : Option Json} (compiled : compiler.append layout data request.context = .ok command) :
    Mutates compiler request ref .append command := by
  have same : command.method = .append ∧ command.layout = layout := by
    unfold DMLCompiler.append at compiled
    split at compiled
    · rcases bind_eq_ok compiled with ⟨_, _, compiled⟩
      rcases bind_eq_ok compiled with ⟨scope, _, compiled⟩
      rcases bind_eq_ok compiled with ⟨values, _, compiled⟩
      cases compiled
      exact ⟨rfl, rfl⟩
    · exact nomatch compiled
  rcases mutation_of_command (compiler.append_eq layout request.context data) compiled with
    ⟨mutation, made, text⟩
  rcases same with ⟨method, rfl⟩
  exact ⟨method, found, mutation, ⟨data, made⟩, text⟩

theorem get_method {input : Json.Object} {context : OperationContext}
    (compiled : compiler.get layout input context = .ok command) : command.method = .get := by
  unfold DMLCompiler.get at compiled
  split at compiled
  · rcases bind_eq_ok compiled with ⟨condition, _, compiled⟩
    cases compiled
    rfl
  · exact nomatch compiled

/-- Every method but `get` changes its Resource. -/
theorem compile_mutates {method : Method} {commands : List DMLCommand} (writes : method ≠ .get)
    (compiled : compiler.compile method ref.canonical request.operation.input request.context =
      .ok commands) :
    commands ≠ [] ∧ ∀ command ∈ commands, Mutates compiler request ref method command := by
  unfold DMLCompiler.compile at compiled
  split at compiled
  · exact nomatch compiled
  · split at compiled
    · exact nomatch compiled
    · rename_i layout found
      have single : ∀ {one : Compiled DMLCommand}, (one.map fun command => [command]) =
          .ok commands → (∀ {command}, one = .ok command →
            Mutates compiler request ref method command) →
          commands ≠ [] ∧ ∀ command ∈ commands, Mutates compiler request ref method command := by
        intro one mapped each
        rcases map_eq_ok mapped with ⟨command, accepted, rfl⟩
        exact ⟨List.cons_ne_nil _ _, List.forall_mem_singleton.mpr (each accepted)⟩
      cases method with
      | get => exact absurd rfl writes
      | atomicClaim => exact nomatch compiled
      | put => exact single compiled (put_mutates found)
      | patch => exact single compiled (patch_mutates found)
      | delete => exact single compiled (delete_mutates found)
      | append =>
          dsimp only at compiled
          split at compiled
          · rename_i items _
            split at compiled
            · exact nomatch compiled
            · rename_i bounded
              refine ⟨?_, forall_of_mapM _ compiled fun _ accepted => append_mutates found accepted⟩
              intro empty
              have length := (mapM_eq_ok compiled).length_eq
              rw [empty, List.length_nil] at length
              exact bounded (.inl (by omega))
          · exact single compiled (append_mutates found)

theorem compile_get {canonical : String} {input : Json.Object} {context : OperationContext}
    {commands : List DMLCommand}
    (compiled : compiler.compile .get canonical input context = .ok commands) :
    ∀ command ∈ commands, command.method = .get ∧ command.statement.command.Reads := by
  unfold DMLCompiler.compile at compiled
  split at compiled
  · exact nomatch compiled
  · split at compiled
    · exact nomatch compiled
    · rcases map_eq_ok compiled with ⟨command, accepted, rfl⟩
      exact List.forall_mem_singleton.mpr
        ⟨get_method accepted, DMLCompiler.get_reads accepted⟩

end Commands

/-! ## Dispatch -/

namespace OperationCompiler

variable {compiler : OperationCompiler Document} {request : ExecutionRequest}
  {method : String} {command : AdapterCommand Document}

theorem allowed_known {catalog : String} (allowed : method ∈ allowedMethods catalog)
    (creates : method ≠ "create_resource") (publishes : method ≠ "publish_schema") :
    (∃ known, dmlMethod method = some known ∧ known ≠ .get ∧ known ≠ .atomicClaim ∧
      contractEffect method = some (.mutation known)) ∨
    (contractEffect method = some .reading ∧
      (dmlMethod method = some .get ∨ dmlMethod method = none)) := by
  have each : ∀ method ∈ "append" :: allowedMethods "structured",
      method = "create_resource" ∨ method = "publish_schema" ∨
      (∃ known, dmlMethod method = some known ∧ known ≠ .get ∧ known ≠ .atomicClaim ∧
        contractEffect method = some (.mutation known)) ∨
      (contractEffect method = some .reading ∧
        (dmlMethod method = some .get ∨ dmlMethod method = none)) := by
    intro method listed
    simp only [allowedMethods, if_true, List.mem_cons, List.not_mem_nil, or_false] at listed
    rcases listed with rfl | rfl | rfl | rfl | rfl | rfl | rfl | rfl | rfl | rfl | rfl
    · exact .inr (.inr (.inl ⟨.append, rfl, nofun, nofun, rfl⟩))
    · exact .inr (.inr (.inr ⟨rfl, .inr rfl⟩))
    · exact .inl rfl
    · exact .inr (.inr (.inl ⟨.delete, rfl, nofun, nofun, rfl⟩))
    · exact .inr (.inr (.inr ⟨rfl, .inl rfl⟩))
    · exact .inr (.inr (.inl ⟨.patch, rfl, nofun, nofun, rfl⟩))
    · exact .inr (.inl rfl)
    · exact .inr (.inr (.inl ⟨.put, rfl, nofun, nofun, rfl⟩))
    · exact .inr (.inr (.inr ⟨rfl, .inr rfl⟩))
    · exact .inr (.inr (.inr ⟨rfl, .inr rfl⟩))
    · exact .inr (.inr (.inr ⟨rfl, .inr rfl⟩))
  have listed : method ∈ "append" :: allowedMethods "structured" := by
    unfold allowedMethods at allowed
    split at allowed
    · exact List.mem_cons_of_mem _ allowed
    · simp only [List.mem_cons, List.not_mem_nil, or_false] at allowed
      rcases allowed with rfl | rfl <;> decide
  rcases each method listed with same | same | known
  · exact absurd same creates
  · exact absurd same publishes
  · exact known

theorem dispatch_cases (accepted : compiler.dispatch request method = .ok command) :
    (∃ known target rest commands, dmlMethod method = some known ∧
      request.operation.hasPlan = false ∧ request.operation.resources = target :: rest ∧
      compiler.dml.compile known target.canonical request.operation.input request.context =
        .ok commands ∧ command = .dml commands) ∨
    ((dmlMethod method = none ∨ request.operation.hasPlan = true ∨
        request.operation.resources = []) ∧
      ∃ compiled, command = .query compiled ∧ compiled.statement.command.Reads) := by
  rcases bind_eq_ok accepted with ⟨registry, _, accepted⟩
  split at accepted
  · exact nomatch accepted
  · split at accepted
    · rename_i known target rest dml planless resources
      rcases map_eq_ok accepted with ⟨commands, compiled, rfl⟩
      exact .inl ⟨known, target, rest, commands, dml, planless, resources, compiled, rfl⟩
    · rename_i other
      rcases map_eq_ok accepted with ⟨compiled, queried, rfl⟩
      refine .inr ⟨?_, compiled, rfl, ?_⟩
      · cases dml : dmlMethod method with
        | none => exact .inl rfl
        | some known =>
            cases plan : request.operation.hasPlan with
            | true => exact .inr (.inl rfl)
            | false =>
                cases resources : request.operation.resources with
                | nil => exact .inr (.inr rfl)
                | cons target rest => exact absurd resources (other known target rest dml plan)
      · rcases bind_eq_ok queried with ⟨_, _, queried⟩
        rcases bind_eq_ok queried with ⟨operation, _, queried⟩
        dsimp only at queried
        split at queried
        · exact nomatch queried
        · rcases bind_eq_ok queried with ⟨fingerprints, _, queried⟩
          exact PostgreSQLQueryTranslator.compile_reads queried

theorem agrees_of_effect {effect : Effect}
    (contract : contractMethod request.operation = some method)
    (promised : contractEffect method = some effect) :
    Agrees compiler request command ↔ command.Has compiler request effect := by
  constructor
  · rintro ⟨other, held, same, known, has⟩
    rw [contract] at same
    cases same
    rw [promised] at known
    cases known
    exact has
  · exact fun has => ⟨method, effect, contract, promised, has⟩

theorem plannedMutation_iff {known : Method} (dml : dmlMethod method = some known)
    (writes : known ≠ .get) (put : method = "put" → request.operation.hasPlan = false)
    (contract : contractMethod request.operation = some method) :
    request.operation.plannedMutation = true ↔ request.operation.hasPlan = true := by
  rw [Operation.plannedMutation, contract, Option.any_some, Bool.and_eq_true,
    decide_eq_true_iff, and_iff_left_iff_imp]
  intro planned
  unfold dmlMethod at dml
  repeat' split at dml
  · exact absurd (put ‹_›) (by rw [planned]; decide)
  · cases dml
    exact absurd rfl writes
  all_goals simp_all

end OperationCompiler

/-- The command of an accepted request has the effect that its contract
promises, except when a request to patch, delete or append brings a query
plan: it is then compiled to a read. -/
theorem contract_agrees_iff {compiler : OperationCompiler Document} {request : ExecutionRequest}
    {command : AdapterCommand Document} (accepted : compiler.compile request = .ok command) :
    Agrees compiler request command ↔ request.operation.plannedMutation = false := by
  rcases bind_eq_ok accepted with ⟨method, admittedOk, accepted⟩
  rcases OperationCompiler.admitted_cases admittedOk with
    ⟨contract, _, allowed, creates, put, single⟩
  split at accepted
  · rename_i publishes
    subst publishes
    rcases map_eq_ok accepted with ⟨publication, _, rfl⟩
    rw [OperationCompiler.agrees_of_effect contract rfl, Operation.plannedMutation, contract]
    simp [AdapterCommand.Has]
  · rename_i publishes
    rcases OperationCompiler.allowed_known allowed creates publishes with
      ⟨known, dml, writes, claims, promised⟩ | ⟨promised, reading⟩
    · rw [OperationCompiler.agrees_of_effect contract promised, ← Bool.not_eq_true,
        OperationCompiler.plannedMutation_iff dml writes put contract]
      rcases OperationCompiler.dispatch_cases accepted with
        ⟨other, target, rest, commands, same, planless, resources, compiled, rfl⟩ |
        ⟨planned, compiled, rfl, reads⟩
      · rw [dml] at same
        cases same
        have length := single (by rintro rfl; exact nomatch dml) planless
        rw [resources, List.length_cons, Nat.add_eq_right, List.length_eq_zero_iff] at length
        rw [length] at resources
        rcases compile_mutates writes compiled with ⟨some, each⟩
        exact ⟨fun _ => by simp [planless], fun _ => ⟨target, resources, some, each⟩⟩
      · have plan : request.operation.hasPlan = true := by
          rcases planned with none | plan | empty
          · rw [dml] at none
            exact nomatch none
          · exact plan
          · by_contra planless
            have length := single (by rintro rfl; exact nomatch dml)
              (Bool.eq_false_of_not_eq_true planless)
            rw [empty] at length
            exact nomatch length
        exact ⟨fun has => has.elim, fun planless => absurd plan planless⟩
    · rw [OperationCompiler.agrees_of_effect contract promised]
      have unplanned : request.operation.plannedMutation = false := by
        rw [Operation.plannedMutation, contract, Option.any_some, Bool.and_eq_false_iff,
          decide_eq_false_iff_not]
        right
        intro listed
        simp only [List.mem_cons, List.not_mem_nil, or_false] at listed
        rcases listed with rfl | rfl | rfl <;> exact nomatch promised
      rw [unplanned, eq_self_iff_true, iff_true]
      rcases OperationCompiler.dispatch_cases accepted with
        ⟨known, target, rest, commands, same, _, _, compiled, rfl⟩ | ⟨_, compiled, rfl, reads⟩
      · rcases reading with get | none
        · rw [get] at same
          cases same
          exact compile_get compiled
        · rw [none] at same
          exact nomatch same
      · exact reads

/-! ## Examples -/

def workPatch : Json.Object :=
  [("where", .object [("id", .string "1")]), ("changes", .object [("state", .string "done")])]

def plainPatch : ExecutionRequest := workRequest "patch" "1.0.0" workPatch

/-- A patch of the work queue that brings the plan of a scan. -/
def plannedPatch : ExecutionRequest :=
  workRequest "patch" "1.0.0"
    (workPatch ++ [("queryPlan", Json.object [("operation", .string "scan")])])

/-- The patch is accepted, and what it is compiled to reads. -/
theorem planned_patch_reads : ∃ compiled,
    workOperations.compile plannedPatch = .ok (.query compiled) ∧
      compiled.statement.command.Reads ∧
      ¬ Agrees workOperations plannedPatch (.query compiled) := by
  have accepted : ∃ compiled, workOperations.compile plannedPatch = .ok (.query compiled) :=
    ⟨_, rfl⟩
  rcases accepted with ⟨compiled, accepted⟩
  have contract : OperationCompiler.contractMethod plannedPatch.operation = some "patch" := by rfl
  have promised : contractEffect "patch" = some (.mutation .patch) := rfl
  refine ⟨compiled, accepted, ?_, ?_⟩
  · rcases bind_eq_ok accepted with ⟨method, admittedOk, dispatched⟩
    cases (OperationCompiler.admitted_cases admittedOk).1.symm.trans contract
    rw [if_neg (by decide)] at dispatched
    rcases OperationCompiler.dispatch_cases dispatched with
      ⟨_, _, _, _, _, _, _, _, impossible⟩ | ⟨_, _, same, reads⟩
    · exact nomatch impossible
    · cases same
      exact reads
  · rw [OperationCompiler.agrees_of_effect contract promised]
    exact id

/-- A patch without a plan. -/
theorem contract_agrees_patch : ∃ command,
    workOperations.compile plainPatch = .ok command ∧ Agrees workOperations plainPatch command := by
  have accepted : ∃ command, workOperations.compile plainPatch = .ok command := ⟨_, rfl⟩
  rcases accepted with ⟨command, accepted⟩
  exact ⟨command, accepted, (contract_agrees_iff accepted).mpr (by rfl)⟩

end MeridianPostgreSQL.Operations
