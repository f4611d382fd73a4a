import MeridianPostgreSQL.Query.DmlAlignment

/-! # Parameters of an execution

`_execute_query` looks the parameters of a compiled query up by name, fills in
the scope and decodes the values for the driver. -/

namespace MeridianPostgreSQL.Query

/-- `_scope_parameter` -/
def scopeParameter (context : OperationContext) (column : String) : Compiled String :=
  if column = "__tenant" then
    match context.tenant with
    | some tenant => .ok tenant
    | none => .error (.value "operation tenant is required")
  else if column.startsWith "__scope_" then
    let key := (column.drop 8).toString
    match context.scope.lookup key with
    | some value => .ok value
    | none => .error (.value s!"operation scope is missing '{key}'")
  else .error (.value "compiled scope marker is invalid")

/-- A parameter as the driver is given it. -/
def executionValue (context : OperationContext) (value : Json) : Compiled DriverValue :=
  match value with
  | .object [("$scope", .string column)] =>
      (scopeParameter context column).map fun value => .plain (.string value)
  | .object [("$scope", _)] => .error (.value "compiled scope marker is invalid")
  | value => decodeQueryValue value

/-- The values the parameter names of a compiled query stand for. -/
def CompiledQuery.orderedValues (compiled : CompiledQuery) : Compiled (List Json) :=
  compiled.parameterOrder.mapM (lookupKey compiled.parameters)

/-- The parameters of `_execute_query`. -/
def CompiledQuery.executionParameters (compiled : CompiledQuery)
    (context : OperationContext) : Compiled (List DriverValue) := do
  let values ← compiled.orderedValues
  values.mapM (executionValue context)

/-! ## Names -/

theorem numbered_injective (stem : String) :
    Function.Injective fun index : Nat => stem ++ toString index := by
  intro left right equal
  have texts := congrArg String.toList equal
  simp only [String.toList_append, List.append_cancel_left_eq] at texts
  have digits : Nat.toDigits 10 left = Nat.toDigits 10 right := by
    simpa only [Nat.toString_eq_repr, Nat.toList_repr] using texts
  have numbers := congrArg (fun digits => Nat.ofDigitChars 10 digits 0) digits
  simpa using numbers

theorem lookup_zip {names : List String} {values : List Json}
    (before : List (String × Json)) (length : names.length = values.length)
    (distinct : names.Nodup) (unused : ∀ name ∈ names, name ∉ before.map Prod.fst) :
    names.mapM (lookupKey (before ++ names.zip values)) = .ok values := by
  induction names generalizing before values with
  | nil =>
      rw [List.eq_nil_of_length_eq_zero length.symm]
      rfl
  | cons name rest induction =>
      cases values with
      | nil => exact nomatch length
      | cons value values =>
          rcases List.nodup_cons.mp distinct with ⟨absent, others⟩
          have first : lookupKey (before ++ (name, value) :: rest.zip values) name =
              .ok value := by
            have missing : before.lookup name = none := by
              apply List.lookup_eq_none_iff.mpr
              intro entry listed
              have fresh := unused name List.mem_cons_self
              simp only [bne_iff_ne]
              exact fun same => fresh (same ▸ List.mem_map_of_mem listed)
            rw [lookupKey, List.lookup_append, missing, List.lookup_cons, beq_self_eq_true]
            rfl
          have later := induction (before ++ [(name, value)]) (Nat.succ.inj length) others (by
            intro other listed
            rw [List.map_append, List.mem_append, not_or]
            refine ⟨unused other (List.mem_cons_of_mem name listed), ?_⟩
            intro same
            have equal : other = name := List.mem_singleton.mp same
            exact absent (equal ▸ listed))
          rw [List.append_assoc, List.singleton_append] at later
          rw [List.zip_cons_cons, List.mapM_cons, first, later]
          rfl

theorem parameterOrder_length (compiled : CompiledQuery) :
    compiled.parameterOrder.length = compiled.statement.parameters.length := by
  simp [CompiledQuery.parameterOrder]

/-- The names lead back to the parameters in their order. -/
theorem orderedValues_eq (compiled : CompiledQuery) :
    compiled.orderedValues = .ok (compiled.statement.parameters.map Parameter.value) := by
  apply lookup_zip []
  · rw [parameterOrder_length, List.length_map]
  · apply List.Nodup.map_on
    · intro left _ right _ equal
      exact numbered_injective "p" equal
    · exact List.nodup_range
  · intro name _
    exact List.not_mem_nil

/-- Each parameter the driver is given is made of the parameter in its place. -/
theorem executionParameters_forall {compiled : CompiledQuery} {context : OperationContext}
    {given : List DriverValue} (executed : compiled.executionParameters context = .ok given) :
    List.Forall₂ (fun parameter value => executionValue context parameter.value = .ok value)
      compiled.statement.parameters given := by
  unfold CompiledQuery.executionParameters at executed
  rw [orderedValues_eq] at executed
  rcases bind_eq_ok executed with ⟨values, same, executed⟩
  cases same
  exact List.forall₂_map_left_iff.mp (mapM_eq_ok executed)

end MeridianPostgreSQL.Query
