import MeridianPostgreSQL.Query.Markers
import MeridianPostgreSQL.Query.TraversalBounds

/-! # Literals beside typed operands

A literal is written for the SQL type of the operand it is compared with,
sought among or contained in. The adapter looks at the operand only where it
is a field, and not in every place. -/

namespace MeridianPostgreSQL.Query

open Settings

/-! ## Types of operands -/

/-- The SQL types that are told apart when a literal is written. -/
inductive OperandType where
  | jsonb
  | bytea
  | other
deriving DecidableEq

def operandType (field : FieldLayout) : OperandType :=
  if field.isJson then .jsonb
  else if field.logicalType = .bytes then .bytea
  else .other

/-- The SQL type of a field, or of a path into a JSON document. -/
def Targets.operandType? (targets : Targets) : Expression → Option OperandType
  | .field resource name => (targets.fieldOf (.field resource name)).map operandType
  | .documentPath document _ => (targets.operandType? document).filter (· = .jsonb)
  | _ => none

def BinaryKind.compares : BinaryKind → Bool
  | .eq | .ne | .lt | .lte | .gt | .gte => true
  | _ => false

namespace Expression

def isField : Expression → Bool
  | .field _ _ => true
  | _ => false

/-- What an operand is compared with, sought among or contained in. -/
def opposites : Expression → Nat → List Expression
  | .binary kind _ right, 0 => if kind.compares then [right] else []
  | .binary kind left _, 1 => if kind.compares then [left] else []
  | .contains left _, 1 => [left]
  | .membership _ _ values, 0 => values
  | .membership _ operand _, _ + 1 => [operand]
  | .timestampRange _ start finish _ _, 0 => start.toList ++ finish.toList
  | .timestampRange operand _ _ _ _, _ + 1 => [operand]
  | _, _ => []

/-- The places where an operand is adapted to the field beside it. -/
def adaptsAt : Expression → Nat → OperandType → Bool
  | .binary _ _ _, _, _ => true
  | .contains _ _, _, type => type = .jsonb
  | .membership _ _ _, index, _ => index ≠ 0
  | _, _, _ => false

end Expression

/-- A literal is given to the driver as its SQL type takes it. -/
def EncodedFor (type : OperandType) (value : Json) (given : Compiled DriverValue) : Prop :=
  match type with
  | .jsonb => given = .ok (.jsonb value)
  | .bytea => ∃ data, decodeBase64url value "query parameter" = .ok data ∧
      given = .ok (.bytes data)
  | .other => given = .ok (.plain value)

/-- The fields that adapt a literal write it for the type. -/
def EncodedOnce (type : OperandType) (adapters : List FieldLayout) (value : Json) : Prop :=
  if type = .other then adapters.filter wraps = [] ∧ isMarker value = false
  else (adapters.filter wraps).map operandType = [type]

theorem wraps_iff (field : FieldLayout) : wraps field = true ↔ operandType field ≠ .other := by
  unfold wraps operandType
  split
  · simp_all
  · split <;> simp_all

/-! ## What the driver is given -/

theorem sizeOf_get {members : Json.Object} {name : String} {value : Json}
    (found : Json.get members name = some value) :
    sizeOf value < sizeOf (Json.object members) := by
  have listed := List.sizeOf_lt_of_mem (Json.mem_of_get found)
  simp at listed ⊢
  omega

/-- What is decoded as JSON is a part of the value it is decoded from. -/
theorem sizeOf_decoded {value inner : Json}
    (decoded : decodeQueryValue value = .ok (.jsonb inner)) : sizeOf inner < sizeOf value := by
  unfold decodeQueryValue at decoded
  split at decoded
  · split at decoded
    · rename_i members
      have smaller : sizeOf (Json.object members) <
          sizeOf (Json.object [("$postgresql", .object members)]) := by
        simp
        omega
      split at decoded
      · rename_i encoding encoded _ found
        split at decoded
        · exact nomatch decoded
        · split at decoded
          · cases decoded
            exact (sizeOf_get found).trans smaller
          · split at decoded
            · obtain ⟨data, _, other⟩ := map_eq_ok decoded
              exact nomatch other
            · exact nomatch decoded
      · exact nomatch decoded
    · exact nomatch decoded
  · exact nomatch decoded

theorem executionValue_jsonb_ne (execution : OperationContext) (value : Json) :
    executionValue execution value ≠ .ok (.jsonb value) := by
  intro executed
  by_cases shaped : ∃ held, value = .object [("$scope", held)]
  · obtain ⟨held, rfl⟩ := shaped
    obtain ⟨text, same⟩ := executionValue_scope executed
    exact nomatch same
  · rw [executionValue_unscoped fun held same => shaped ⟨held, same⟩] at executed
    exact Nat.lt_irrefl _ (sizeOf_decoded executed)

theorem decodeBase64url_string {value : Json} {name : String} {data : List Nat}
    (decoded : decodeBase64url value name = .ok data) : ∃ text, value = .string text := by
  cases value with
  | string text => exact ⟨text, rfl⟩
  | _ => exact nomatch decoded

theorem encodedFor_unwrapped (type : OperandType) (execution : OperationContext)
    (value : Json) : EncodedFor type value (executionValue execution value) ↔
      type = .other ∧ isMarker value = false := by
  cases type with
  | jsonb => exact iff_of_false (executionValue_jsonb_ne execution value) nofun
  | bytea =>
      refine iff_of_false ?_ nofun
      rintro ⟨data, decoded, executed⟩
      obtain ⟨text, rfl⟩ := decodeBase64url_string decoded
      exact nomatch executed
  | other =>
      rw [EncodedFor, executionValue_plain_iff]
      simp

theorem encodedFor_wrapped {field : FieldLayout} {value encoded : Json}
    (wrapped : wraps field = true) (encodes : encodeQueryValue field value = .ok encoded)
    (type : OperandType) (execution : OperationContext) :
    EncodedFor type value (executionValue execution encoded) ↔ operandType field = type := by
  obtain ⟨json, rfl⟩ | ⟨text, rfl, data, decoded⟩ := encodeQueryValue_wrapped wrapped encodes
  · rw [executionValue_jsonb, operandType, if_pos json]
    cases type <;> simp [EncodedFor]
  · have bytes : field.logicalType = .bytes := by simpa [wraps, text] using wrapped
    have named := decodeBase64url_name decoded "query parameter"
    rw [executionValue_base64url, operandType, if_neg (by simp [text]), if_pos bytes, named]
    cases type <;> simp [EncodedFor, Except.map, named]

theorem encodedFor_again (type : OperandType) {value nested : Json}
    (larger : sizeOf value < sizeOf nested) : ¬EncodedFor type value (.ok (.jsonb nested)) := by
  cases type with
  | jsonb =>
      intro same
      cases same
      exact Nat.lt_irrefl _ larger
  | bytea =>
      rintro ⟨data, _, same⟩
      exact nomatch same
  | other => exact nofun

/-- A literal is written for a type exactly when the fields that adapt it do so. -/
theorem encodedFor_iff {type : OperandType} {adapters : List FieldLayout}
    {value encoded : Json} (encodes : encodeAll adapters value = .ok encoded)
    (execution : OperationContext) :
    EncodedFor type value (executionValue execution encoded) ↔
      EncodedOnce type adapters value := by
  unfold EncodedOnce
  cases encodeAll_wrapped encodes with
  | never none same =>
      subst same
      rw [encodedFor_unwrapped, none]
      split <;> simp_all
  | once field one encodes =>
      have wrapped : wraps field = true :=
        (List.mem_filter.mp (one ▸ List.mem_singleton.mpr rfl)).2
      have typed := (wraps_iff field).mp wrapped
      rw [encodedFor_wrapped wrapped encodes, one]
      split
      · simp_all
      · simp
  | again several encoding inner nested larger =>
      subst nested
      rw [executionValue_jsonb]
      refine iff_of_false (encodedFor_again type larger) ?_
      split
      · rintro ⟨none, _⟩
        rw [none] at several
        exact absurd several (by decide)
      · intro one
        have length := congrArg List.length one
        rw [List.length_map, List.length_singleton] at length
        omega

/-! ## Where a literal stands -/

section Places

variable {targets : Targets} {root parent opposite : Expression} {path : List Nat}
  {index : Nat} {value : Json} {type : OperandType}

theorem at?_append (rest : List Nat) :
    root.at? (path ++ rest) = (root.at? path).bind fun inner => inner.at? rest := by
  induction path generalizing root with
  | nil => rfl
  | cons index path induction =>
      rw [List.cons_append, Expression.at?, Expression.at?]
      cases root.child index with
      | none => rfl
      | some inner => exact induction

/-- The fields around an expression adapt what stands in it, after its own. -/
theorem adaptersAt_append (rest : List Nat) (reached : root.at? path = some parent) :
    root.adaptersAt targets (path ++ rest) =
      parent.adaptersAt targets rest ++ root.adaptersAt targets path := by
  induction path generalizing root with
  | nil =>
      cases reached
      rw [List.nil_append, Expression.adaptersAt, List.append_nil]
  | cons index path induction =>
      rw [Expression.at?] at reached
      cases child : root.child index with
      | none =>
          rw [child] at reached
          cases reached
      | some inner =>
          rw [child] at reached
          rw [List.cons_append, Expression.adaptersAt, Expression.adaptersAt, child]
          dsimp only
          rw [induction reached, List.append_assoc]

theorem Targets.operandType?_field (field : opposite.isField = true)
    (known : targets.operandType? opposite = some type) :
    ∃ layout, targets.fieldOf opposite = some layout ∧ operandType layout = type := by
  cases opposite with
  | field resource name => exact Option.map_eq_some_iff.mp known
  | _ => exact nomatch field

theorem Targets.fieldOf_other (other : opposite.isField = false) :
    targets.fieldOf opposite = none := by
  cases opposite with
  | field => exact nomatch other
  | _ => rfl

theorem operandType_jsonb (field : FieldLayout) :
    operandType field = .jsonb ↔ field.isJson = true := by
  unfold operandType
  split
  · simp_all
  · split <;> simp_all

/-- The field beside a literal adapts it, if it is one. -/
theorem fieldOf_adapts (known : targets.operandType? opposite = some type) :
    if opposite.isField = true then
      ∃ field, targets.fieldOf opposite = some field ∧ operandType field = type
    else targets.fieldOf opposite = none := by
  split
  · rename_i field
    exact Targets.operandType?_field field known
  · rename_i other
    exact Targets.fieldOf_other (Bool.eq_false_iff.mpr other)

theorem eq_of_mem_compared {compares : Bool} {other : Expression}
    (faces : opposite ∈ if compares = true then [other] else []) : opposite = other := by
  cases compares with
  | true => exact List.mem_singleton.mp faces
  | false => exact nomatch faces

/-- A literal is adapted to the operand that it faces exactly where that is a
field, and in the places that look at it. -/
theorem adapter_of_opposite (literal : parent.child index = some (.literal value))
    (faces : opposite ∈ parent.opposites index)
    (known : targets.operandType? opposite = some type) :
    if (opposite.isField && parent.adaptsAt index type) = true then
      ∃ field, parent.adapter targets index = some field ∧ operandType field = type
    else parent.adapter targets index = none := by
  have beside := fieldOf_adapts known
  cases parent with
  | binary kind left right =>
      rcases index with _ | _ | _
      · cases literal
        cases eq_of_mem_compared faces
        simpa [Expression.adaptsAt, Expression.adapter, Expression.isLiteral] using beside
      · cases literal
        cases eq_of_mem_compared faces
        simpa [Expression.adaptsAt, Expression.adapter, Expression.isLiteral] using beside
      · cases faces
  | contains left right =>
      rcases index with _ | _ | _
      · cases faces
      · cases List.mem_singleton.mp faces
        by_cases field : opposite.isField = true
        · rw [if_pos field] at beside
          obtain ⟨layout, found, same⟩ := beside
          rw [Expression.adapter, found, field]
          by_cases json : type = .jsonb
          · have wrapped := (operandType_jsonb layout).mp (same.trans json)
            simp [Expression.adaptsAt, json, wrapped, (operandType_jsonb layout).mpr]
          · have text : layout.isJson = false := by
              apply Bool.eq_false_iff.mpr
              exact fun wrapped => json (same ▸ (operandType_jsonb layout).mpr wrapped)
            simp [Expression.adaptsAt, json, text]
        · rw [if_neg field] at beside
          simp [Expression.adapter, beside, field]
      · cases faces
  | membership negated operand values =>
      rcases index with _ | _
      · simp [Expression.adaptsAt, Expression.adapter]
      · cases List.mem_singleton.mp faces
        simpa [Expression.adaptsAt, Expression.adapter] using beside
  | timestampRange operand start finish includeStart includeEnd =>
      simp [Expression.adaptsAt, Expression.adapter]
  | _ => cases faces

end Places

/-! ## Literals of a plan -/

/-- How a literal is written: the fields around the comparison do not wrap it
again, or do what the comparison leaves undone. -/
def WrittenFor (type : OperandType) (typed : Bool) (around : List FieldLayout)
    (value : Json) : Prop :=
  if typed then around.filter wraps = [] ∧ (type = .other → isMarker value = false)
  else EncodedOnce type around value

theorem encodedOnce_adapted {field : FieldLayout} {around : List FieldLayout} {value : Json} :
    EncodedOnce (operandType field) (field :: around) value ↔
      WrittenFor (operandType field) true around value := by
  unfold EncodedOnce WrittenFor
  by_cases other : operandType field = .other
  · have unwrapped : wraps field = false := by
      apply Bool.eq_false_iff.mpr
      exact fun wrapped => (wraps_iff field).mp wrapped other
    simp [other, unwrapped]
  · have wrapped := (wraps_iff field).mpr other
    simp [other, wrapped]

namespace PostgreSQLQueryTranslator

/-- Every literal that faces an operand of a known type is bound as that type
takes it exactly when the operand is a field that the place looks at and no
field around them wraps the literal again, or one field around does what the
place does not. -/
theorem literal_encoded_iff {translator : PostgreSQLQueryTranslator} {plan : Plan}
    {context : TranslationContext} {compiled : CompiledQuery}
    (accepted : translator.compile plan context = .ok compiled)
    {parameter : Parameter Origin Json} (bound : parameter ∈ compiled.statement.parameters)
    {site : Site} {path : List Nat} {index : Nat} {root parent opposite : Expression}
    {targets : Targets} {value : Json} {type : OperandType}
    (origin : parameter.origin = .expression site (path ++ [index]) .literal)
    (given : plan.operation.expressionAt site = some root)
    (chosen : TargetsAt translator plan.operation site targets)
    (reached : root.at? path = some parent)
    (literal : parent.child index = some (.literal value))
    (faces : opposite ∈ parent.opposites index)
    (known : targets.operandType? opposite = some type) :
    (∀ execution, EncodedFor type value (executionValue execution parameter.value)) ↔
      WrittenFor type (opposite.isField && parent.adaptsAt index type)
        (root.adaptersAt targets path) value := by
  have stands : StandsFor translator plan.operation parameter.origin
      (root.adaptersAt targets (path ++ [index])) value := by
    rw [origin]
    refine ⟨root, targets, .literal value, given, chosen, ?_, rfl, rfl⟩
    rw [at?_append, reached, Option.bind_some, Expression.at?, literal]
    rfl
  obtain ⟨adapters, held, standsHeld, encodes⟩ :=
    compile_plan_adapted accepted bound (by rw [origin]; rfl)
  obtain ⟨rfl, rfl⟩ := standsHeld.unique (by rw [origin]; rfl) stands
  have each : (∀ execution, EncodedFor type held (executionValue execution parameter.value)) ↔
      EncodedOnce type (root.adaptersAt targets (path ++ [index])) held :=
    ⟨fun all => (encodedFor_iff encodes ⟨none, []⟩).mp (all _),
      fun once execution => (encodedFor_iff encodes execution).mpr once⟩
  have place := adapter_of_opposite literal faces known
  have single : parent.adaptersAt targets [index] = (parent.adapter targets index).toList := by
    rw [Expression.adaptersAt, literal]
    rfl
  rw [each, adaptersAt_append [index] reached, single]
  split at place
  · rename_i typed
    obtain ⟨field, adapts, rfl⟩ := place
    rw [adapts, typed]
    exact encodedOnce_adapted
  · rename_i untyped
    rw [place, Bool.eq_false_iff.mpr untyped]
    exact Iff.rfl

/-! ## Ends of a relation -/

/-- The source of a relation is `jsonb`, and is compared with `jsonb`. -/
theorem startsAt_encoded : ∃ compiled wrapped,
    followsTranslator.compile (startsAt workReference) workContext = .ok compiled ∧
      ⟨.expression .filter [1] .literal, wrapped⟩ ∈ compiled.statement.parameters ∧
      ∀ execution, EncodedFor .jsonb workReference (executionValue execution wrapped) := by
  obtain ⟨compiled, wrapped, accepted, bound, _⟩ := startsAt_compiled
  have origin : Origin.expression .filter [1] .literal =
      .expression .filter ([] ++ [1]) .literal := rfl
  have literal := literal_encoded_iff accepted bound origin rfl (.selection rfl rfl) rfl
    rfl (List.mem_singleton.mpr rfl) rfl
  exact ⟨compiled, wrapped, accepted, bound, literal.mpr ⟨rfl, nofun⟩⟩

/-- The relations that a record is an end of. -/
def followsOf (record : Json) : Plan :=
  let filter : Expression := .membership false (.literal record)
    [.field none "source", .field none "target"]
  { workScan filter with operation := { (workScan filter).operation with
      targets := ["structured:example.follows"] } }

/-- The ends of a relation are `jsonb`, and a record among them is given as it is. -/
theorem followsOf_plain : ∃ compiled targets,
    followsTranslator.compile (followsOf workReference) workContext = .ok compiled ∧
      ⟨.expression .filter [0] .literal, workReference⟩ ∈ compiled.statement.parameters ∧
      TargetsAt followsTranslator (followsOf workReference).operation .filter targets ∧
      targets.operandType? (.field none "source") = some .jsonb ∧
      ¬EncodedFor .jsonb workReference (executionValue ⟨none, []⟩ workReference) :=
  ⟨_, _, rfl, .tail _ (.tail _ (.head _)), .selection rfl rfl, rfl,
    executionValue_jsonb_ne _ _⟩

end PostgreSQLQueryTranslator

end MeridianPostgreSQL.Query
