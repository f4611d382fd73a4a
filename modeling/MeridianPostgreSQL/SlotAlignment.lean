import MeridianPostgreSQL.Query.Execution
import MeridianPostgreSQL.Migration.LogicalImport
import MeridianPostgreSQL.Projection.ClaimStatements

/-! # Slots and parameters of every statement

Whatever the adapter builds, the slots of the text carry the parameters in
order, and each parameter is the value its slot was written for. -/

namespace MeridianPostgreSQL

open Query
open Settings

/-- The adapter's statements: translated plans as they are executed, mutations,
claims, imported lines and the two statements of an outbox claim. -/
structure SlotsCarryParameters (translator : PostgreSQLQueryTranslator)
    (compiler : DMLCompiler) (tables : Projection.OutboxTables) : Prop where
  plan : ∀ {plan context compiled}, translator.compile plan context = .ok compiled →
    Supplied (Supplies translator plan.operation) compiled.statement
  execution : ∀ {plan context compiled operation given},
    translator.compile plan context = .ok compiled →
      compiled.executionParameters operation = .ok given →
        List.Forall₂ (fun parameter value => executionValue operation parameter.value = .ok value)
          compiled.statement.parameters given
  mutation : ∀ {method canonical input context commands},
    compiler.compile method canonical input context = .ok commands →
      ∃ layout, compiler.settings.layout canonical = some layout ∧
        ∀ {index : Nat} {command : DMLCommand}, commands[index]? = some command →
          compiler.Binds context (DMLCompiler.written method input index)
            (DMLCompiler.addressed method layout input)
            (member input "expectedVersion") none command.statement
  claim : ∀ {layout filter changes limit context command},
    compiler.atomicClaim layout filter changes limit context = .ok command →
      compiler.Binds context changes filter none (some limit) command.statement
  imported : ∀ {scope payload statement},
    Migration.importLine compiler scope payload = .ok statement →
      ∃ record values, payload = .object record ∧
        Json.get record "values" = some (.object values) ∧
        Supplied (DMLSupplies (Migration.importBindings scope values)) statement
  outboxClaim : ∀ {current limit}, Supplied (tables.ClaimSupplies current limit)
    (tables.claimStatement current limit)
  outboxLease : ∀ {event owner current duration},
    Supplied (tables.LeaseSupplies event owner current duration)
      (tables.leaseStatement event owner current duration)

theorem slots_carry_parameters (translator : PostgreSQLQueryTranslator)
    (compiler : DMLCompiler) (tables : Projection.OutboxTables) :
    SlotsCarryParameters translator compiler tables where
  plan := PostgreSQLQueryTranslator.compile_plan_supplied
  execution := fun _ => executionParameters_forall
  mutation := DMLCompiler.compile_binds
  claim := DMLCompiler.atomicClaim_binds
  imported := Migration.importLine_supplied
  outboxClaim := tables.claimStatement_supplied _ _
  outboxLease := tables.leaseStatement_supplied _ _ _ _

end MeridianPostgreSQL
