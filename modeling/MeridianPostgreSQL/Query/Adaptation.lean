import MeridianPostgreSQL.Query.PlanAlignment

/-! # Fields that adapt a value

On its way out of an expression a value is encoded for every field that an
enclosing expression adapts it to, the innermost first. -/

namespace MeridianPostgreSQL.Query

open Settings

/-! ## Adapting fields -/

/-- The field that an expression is, if it is one. -/
def Targets.fieldOf (targets : Targets) (expression : Expression) : Option FieldLayout :=
  match targets.expressionField expression with
  | .ok field => field
  | .error _ => none

namespace Expression

variable (targets : Targets)

/-- The field that an expression adapts one of its operands to. -/
def adapter : Expression → Nat → Option FieldLayout
  | .binary _ left right, 0 => if left.isLiteral then targets.fieldOf right else none
  | .binary _ left right, 1 => if right.isLiteral then targets.fieldOf left else none
  | .contains left _, 1 => (targets.fieldOf left).filter FieldLayout.isJson
  | .membership _ operand _, _ + 1 => targets.fieldOf operand
  | _, _ => none

/-- The fields that adapt what stands at a path, the innermost first. -/
def adaptersAt (expression : Expression) : List Nat → List FieldLayout
  | [] => []
  | index :: rest =>
      (match expression.child index with
        | some inner => inner.adaptersAt rest
        | none => []) ++ (expression.adapter targets index).toList

end Expression

/-- A value encoded for several fields in turn. -/
def encodeAll (fields : List FieldLayout) (value : Json) : Compiled Json :=
  fields.foldlM (fun encoded field => encodeQueryValue field encoded) value

/-- A parameter holds the value of an expression below the path, encoded for the
fields that adapt it. -/
def AdaptedFrom (targets : Targets) (site : Site) (path : List Nat) (expression : Expression)
    (origin : Origin) (value : Json) : Prop :=
  ∃ rest part inner contributed, origin = .expression site (path ++ rest) part ∧
    expression.at? rest = some inner ∧ inner.contribution part = some contributed ∧
    encodeAll (expression.adaptersAt targets rest) contributed = .ok value

section Adapting

variable {targets : Targets} {site : Site} {path : List Nat} {expression inner : Expression}

theorem AdaptedFrom.here {part : Part} {value : Json}
    (contributed : expression.contribution part = some value) :
    AdaptedFrom targets site path expression (.expression site path part) value :=
  ⟨[], part, expression, value, by rw [List.append_nil], rfl, contributed, rfl⟩

theorem AdaptedFrom.below {index : Nat} {origin : Origin} {value : Json}
    (child : expression.child index = some inner) (plain : expression.adapter targets index = none)
    (adapted : AdaptedFrom targets site (path ++ [index]) inner origin value) :
    AdaptedFrom targets site path expression origin value := by
  obtain ⟨rest, part, deepest, contributed, same, reached, binds, encoded⟩ := adapted
  refine ⟨index :: rest, part, deepest, contributed, ?_, ?_, binds, ?_⟩
  · rw [same, List.append_assoc, List.singleton_append]
  · rw [Expression.at?, child]
    exact reached
  · rw [Expression.adaptersAt, child, plain]
    simpa using encoded

theorem encodeAll_append (fields others : List FieldLayout) (value : Json) :
    encodeAll (fields ++ others) value = encodeAll fields value >>= encodeAll others :=
  List.foldlM_append

theorem AdaptedFrom.encoded {index : Nat} {field : FieldLayout}
    {before after : Parameter Origin Json} (child : expression.child index = some inner)
    (adapter : expression.adapter targets index = some field)
    (changed : adaptParameter field before = .ok after)
    (adapted : AdaptedFrom targets site (path ++ [index]) inner before.origin before.value) :
    AdaptedFrom targets site path expression after.origin after.value := by
  obtain ⟨rest, part, deepest, contributed, same, reached, binds, encoded⟩ := adapted
  obtain ⟨value, valueOk, rfl⟩ := map_eq_ok changed
  refine ⟨index :: rest, part, deepest, contributed, ?_, ?_, binds, ?_⟩
  · rw [same, List.append_assoc, List.singleton_append]
  · rw [Expression.at?, child]
    exact reached
  · rw [Expression.adaptersAt, child, adapter, encodeAll_append, encoded]
    change encodeAll [field] before.value = .ok value
    simp [encodeAll, valueOk]

/-- Every parameter of a statement holds what an expression binds. -/
abbrev Adapted (targets : Targets) (site : Site) (path : List Nat) (expression : Expression)
    (statement : QueryStatement) : Prop :=
  ∀ parameter ∈ statement.parameters,
    AdaptedFrom targets site path expression parameter.origin parameter.value

theorem Adapted.below {index : Nat} {statement : QueryStatement}
    (adapted : Adapted targets site (path ++ [index]) inner statement)
    (child : expression.child index = some inner)
    (plain : expression.adapter targets index = none) :
    Adapted targets site path expression statement :=
  fun parameter member => .below child plain (adapted parameter member)

theorem mem_adapt {statement after : QueryStatement} {field : FieldLayout}
    (adapted : adapt statement field = .ok after) {parameter : Parameter Origin Json}
    (member : parameter ∈ after.parameters) :
    ∃ before ∈ statement.parameters, adaptParameter field before = .ok parameter := by
  obtain ⟨parameters, mapped, rfl⟩ := map_eq_ok adapted
  have each := mapM_eq_ok mapped
  obtain ⟨index, before, found, held⟩ := exists_index each.length_eq member
  obtain ⟨first, rfl⟩ := List.getElem?_eq_some_iff.mp found
  obtain ⟨second, rfl⟩ := List.getElem?_eq_some_iff.mp held
  exact ⟨_, List.getElem_mem first, each.get first second⟩

theorem Adapted.adapt {index : Nat} {statement after : QueryStatement} {field : FieldLayout}
    (adapted : Adapted targets site (path ++ [index]) inner statement)
    (child : expression.child index = some inner)
    (adapter : expression.adapter targets index = some field)
    (changed : Query.adapt statement field = .ok after) :
    Adapted targets site path expression after := by
  intro parameter member
  obtain ⟨before, present, encoded⟩ := mem_adapt changed member
  exact .encoded child adapter encoded (adapted before present)

/-- An operand that is adapted if it is chosen and there is a field. -/
theorem Adapted.adaptIf {index : Nat} {statement after : QueryStatement} {chosen : Bool}
    {field : Option FieldLayout}
    (adapted : Adapted targets site (path ++ [index]) inner statement)
    (child : expression.child index = some inner)
    (adapter : expression.adapter targets index = if chosen then field else none)
    (changed : Query.adaptIf chosen field statement = .ok after) :
    Adapted targets site path expression after := by
  cases field with
  | none =>
      cases changed
      exact adapted.below child (by simpa using adapter)
  | some field =>
      cases chosen with
      | false =>
          cases changed
          exact adapted.below child adapter
      | true => exact adapted.adapt child adapter changed

theorem adapted_each (expression : Expression) {operands : List Expression}
    {statements : List QueryStatement} (length : operands.length = statements.length)
    (each : ∀ {index : Nat} {operand statement}, operands[index]? = some operand →
      statements[index]? = some statement → Adapted targets site path expression statement) :
    ∀ parameter ∈ allParameters statements,
      AdaptedFrom targets site path expression parameter.origin parameter.value := by
  intro parameter member
  obtain ⟨statement, listed, inside⟩ := List.mem_flatMap.mp member
  obtain ⟨index, operand, found, held⟩ := exists_index length listed
  exact each found held parameter inside

theorem adapted_range {operand : QueryStatement} {start finish : Option QueryStatement}
    {includeStart includeEnd : Bool} {property : Parameter Origin Json → Prop}
    (operands : ∀ parameter ∈ operand.parameters, property parameter)
    (starts : ∀ boundary, start = some boundary → ∀ parameter ∈ boundary.parameters,
      property parameter)
    (finishes : ∀ boundary, finish = some boundary → ∀ parameter ∈ boundary.parameters,
      property parameter) :
    ∀ parameter ∈ (rangeStatement operand start finish includeStart includeEnd).parameters,
      property parameter := by
  cases start <;> cases finish <;>
    simp_all [rangeStatement, conjunction, allParameters, boundaryStatement, or_imp]

theorem Targets.fieldOf_ok {field : Option FieldLayout}
    (found : targets.expressionField expression = .ok field) :
    targets.fieldOf expression = field := by
  rw [Targets.fieldOf, found]

end Adapting

/-! ## Compiled expressions -/

section Compiled

variable {targets : Targets} {site : Site}

mutual

theorem compile_adapted : ∀ (path : List Nat) (expression : Expression)
    (statement : QueryStatement), compile targets site path expression = .ok statement →
      Adapted targets site path expression statement
  | path, .field resource name, statement, compiled => by
      unfold compile at compiled
      obtain ⟨found, _, equal⟩ := bind_eq_ok compiled
      cases equal
      nofun
  | path, .literal value, statement, compiled => by
      cases compiled
      exact List.forall_mem_singleton.mpr (.here rfl)
  | path, .parameter name, statement, compiled => nomatch compiled
  | path, .point coordinates, statement, compiled => by
      unfold compile at compiled
      split at compiled
      · cases compiled
        exact List.forall_mem_cons.mpr ⟨.here rfl, List.forall_mem_singleton.mpr (.here rfl)⟩
      · exact nomatch compiled
  | path, .unary kind operand, statement, compiled => by
      unfold compile at compiled
      obtain ⟨inner, operandOk, equal⟩ := bind_eq_ok compiled
      cases equal
      exact (compile_adapted _ operand inner operandOk).below rfl rfl
  | path, .boolean kind operands, statement, compiled => by
      unfold compile at compiled
      obtain ⟨statements, operandsOk, equal⟩ := bind_eq_ok compiled
      cases equal
      obtain ⟨length, each⟩ := compileAll_adapted path 0 operands statements operandsOk
      have all := adapted_each (.boolean kind operands) length fun found held =>
        (each found held).below (by rw [Nat.zero_add]; exact found) rfl
      intro parameter member
      apply all
      cases kind <;> cases statements <;> exact member
  | path, .binary kind leftValue rightValue, statement, compiled => by
      unfold compile at compiled
      obtain ⟨left, leftOk, equal⟩ := bind_eq_ok compiled
      obtain ⟨right, rightOk, equal⟩ := bind_eq_ok equal
      obtain ⟨leftField, leftFound, equal⟩ := bind_eq_ok equal
      obtain ⟨rightField, rightFound, equal⟩ := bind_eq_ok equal
      obtain ⟨rightAdapted, rightAdapts, equal⟩ := bind_eq_ok equal
      obtain ⟨leftAdapted, leftAdapts, equal⟩ := bind_eq_ok equal
      cases equal
      have lefts : Adapted targets site path (.binary kind leftValue rightValue) leftAdapted :=
        (compile_adapted _ leftValue left leftOk).adaptIf rfl
          (by rw [Expression.adapter, Targets.fieldOf_ok rightFound]) leftAdapts
      have rights : Adapted targets site path (.binary kind leftValue rightValue) rightAdapted :=
        (compile_adapted _ rightValue right rightOk).adaptIf rfl
          (by rw [Expression.adapter, Targets.fieldOf_ok leftFound]) rightAdapts
      exact List.forall_mem_append.mpr ⟨lefts, rights⟩
  | path, .hasPrefix leftValue rightValue, statement, compiled => by
      unfold compile at compiled
      obtain ⟨left, leftOk, equal⟩ := bind_eq_ok compiled
      obtain ⟨right, rightOk, equal⟩ := bind_eq_ok equal
      cases equal
      have lefts : Adapted targets site path (.hasPrefix leftValue rightValue) left :=
        (compile_adapted _ leftValue left leftOk).below rfl rfl
      have rights : Adapted targets site path (.hasPrefix leftValue rightValue) right :=
        (compile_adapted _ rightValue right rightOk).below rfl rfl
      exact List.forall_mem_append.mpr ⟨lefts, rights⟩
  | path, .contains leftValue rightValue, statement, compiled => by
      unfold compile at compiled
      obtain ⟨leftField, fieldOk, equal⟩ := bind_eq_ok compiled
      obtain ⟨left, leftOk, equal⟩ := bind_eq_ok equal
      obtain ⟨right, rightOk, equal⟩ := bind_eq_ok equal
      have lefts : Adapted targets site path (.contains leftValue rightValue) left :=
        (compile_adapted _ leftValue left leftOk).below rfl rfl
      have adapter : (Expression.contains leftValue rightValue).adapter targets 1 =
          leftField.filter FieldLayout.isJson := by
        rw [Expression.adapter, Targets.fieldOf_ok fieldOk]
      have searched : (Expression.contains leftValue rightValue).adapter targets 1 = none →
          Adapted targets site path (.contains leftValue rightValue)
            (positionStatement left right) := fun plain =>
        List.forall_mem_append.mpr
          ⟨(compile_adapted _ rightValue right rightOk).below rfl plain, lefts⟩
      split at equal
      · rename_i field
        split at equal
        · rename_i json
          obtain ⟨rightAdapted, adapted, equal⟩ := bind_eq_ok equal
          cases equal
          have rights : Adapted targets site path (.contains leftValue rightValue)
              rightAdapted :=
            (compile_adapted _ rightValue right rightOk).adapt rfl
              (adapter.trans (by simp [json])) adapted
          exact List.forall_mem_append.mpr ⟨lefts, rights⟩
        · rename_i text
          cases equal
          exact searched (adapter.trans (by simp [text]))
      · cases equal
        exact searched adapter
  | path, .isNull operand expected, statement, compiled => by
      unfold compile at compiled
      obtain ⟨inner, operandOk, equal⟩ := bind_eq_ok compiled
      cases equal
      exact (compile_adapted _ operand inner operandOk).below rfl rfl
  | path, .membership negated operand values, statement, compiled => by
      unfold compile at compiled
      obtain ⟨inner, operandOk, equal⟩ := bind_eq_ok compiled
      split at equal
      · exact nomatch equal
      · obtain ⟨items, itemsOk, equal⟩ := bind_eq_ok equal
        obtain ⟨field, fieldOk, equal⟩ := bind_eq_ok equal
        obtain ⟨adapted, adaptedOk, equal⟩ := bind_eq_ok equal
        cases equal
        have operands : Adapted targets site path (.membership negated operand values) inner :=
          (compile_adapted _ operand inner operandOk).below rfl rfl
        obtain ⟨length, each⟩ := compileAll_adapted path 1 values items itemsOk
        have adapts := mapM_eq_ok adaptedOk
        refine List.forall_mem_append.mpr ⟨operands, adapted_each _
          (length.trans adapts.length_eq) ?_⟩
        intro index value after found held
        obtain ⟨inside, rfl⟩ := List.getElem?_eq_some_iff.mp held
        have present : index < items.length := adapts.length_eq ▸ inside
        have changed := adapts.get present inside
        have below := each found (List.getElem?_eq_getElem present)
        rw [Nat.add_comm] at below
        have child : (Expression.membership negated operand values).child (index + 1) =
            some value := List.getElem?_cons_succ.trans found
        apply below.adaptIf child _ changed
        rw [Expression.adapter, Targets.fieldOf_ok fieldOk, if_pos rfl]
  | path, .timestampRange operand start finish includeStart includeEnd, statement,
      compiled => by
      unfold compile at compiled
      obtain ⟨inner, operandOk, equal⟩ := bind_eq_ok compiled
      obtain ⟨startStatement, startOk, equal⟩ := bind_eq_ok equal
      obtain ⟨finishStatement, finishOk, equal⟩ := bind_eq_ok equal
      cases equal
      have starts := compileOptional_adapted _ start startStatement startOk
      have finishes := compileOptional_adapted _ finish finishStatement finishOk
      have operands : Adapted targets site path
          (.timestampRange operand start finish includeStart includeEnd) inner :=
        (compile_adapted _ operand inner operandOk).below rfl rfl
      apply adapted_range operands
      · intro boundary found
        obtain ⟨value, given, adapted⟩ := starts boundary found
        exact adapted.below given rfl
      · intro boundary found
        obtain ⟨value, given, adapted⟩ := finishes boundary found
        exact adapted.below given rfl
  | path, .documentPath document pointer, statement, compiled => by
      unfold compile at compiled
      obtain ⟨inner, documentOk, equal⟩ := bind_eq_ok compiled
      split at equal
      · cases equal
        have documents : Adapted targets site path (.documentPath document pointer) inner :=
          (compile_adapted _ document inner documentOk).below rfl rfl
        exact List.forall_mem_append.mpr
          ⟨documents, List.forall_mem_singleton.mpr (.here rfl)⟩
      · exact nomatch equal
  | path, .fullText fields query, statement, compiled => by
      unfold compile at compiled
      split at compiled
      · exact nomatch compiled
      · obtain ⟨statements, fieldsOk, equal⟩ := bind_eq_ok compiled
        cases equal
        obtain ⟨length, each⟩ := compileAll_adapted path 0 fields statements fieldsOk
        have all := adapted_each (.fullText fields query) length fun found held =>
          (each found held).below (by rw [Nat.zero_add]; exact found) rfl
        exact List.forall_mem_append.mpr ⟨all, List.forall_mem_singleton.mpr (.here rfl)⟩
  | path, .distance leftValue rightValue, statement, compiled => by
      unfold compile at compiled
      obtain ⟨left, leftOk, equal⟩ := bind_eq_ok compiled
      obtain ⟨right, rightOk, equal⟩ := bind_eq_ok equal
      cases equal
      have lefts : Adapted targets site path (.distance leftValue rightValue) left :=
        (compile_adapted _ leftValue left leftOk).below rfl rfl
      have rights : Adapted targets site path (.distance leftValue rightValue) right :=
        (compile_adapted _ rightValue right rightOk).below rfl rfl
      exact List.forall_mem_append.mpr ⟨lefts, rights⟩
  | path, .distanceWithin leftValue rightValue limit, statement, compiled => by
      unfold compile at compiled
      obtain ⟨left, leftOk, equal⟩ := bind_eq_ok compiled
      obtain ⟨right, rightOk, equal⟩ := bind_eq_ok equal
      cases equal
      have lefts : Adapted targets site path (.distanceWithin leftValue rightValue limit) left :=
        (compile_adapted _ leftValue left leftOk).below rfl rfl
      have rights : Adapted targets site path (.distanceWithin leftValue rightValue limit) right :=
        (compile_adapted _ rightValue right rightOk).below rfl rfl
      exact List.forall_mem_append.mpr ⟨List.forall_mem_append.mpr ⟨lefts, rights⟩,
        List.forall_mem_singleton.mpr (.here rfl)⟩
  | path, .aggregate function operand distinct, statement, compiled => by
      unfold compile at compiled
      obtain ⟨inner, operandOk, equal⟩ := bind_eq_ok compiled
      cases inner with
      | none =>
          dsimp only at equal
          split at equal
          · cases equal
            nofun
          · exact nomatch equal
      | some inner =>
          dsimp only at equal
          split at equal
          · exact nomatch equal
          · cases equal
            obtain ⟨value, rfl, adapted⟩ :=
              compileOptional_adapted _ operand (some inner) operandOk inner rfl
            exact adapted.below rfl rfl

theorem compileAll_adapted : ∀ (path : List Nat) (offset : Nat)
    (expressions : List Expression) (statements : List QueryStatement),
    compileAll targets site path offset expressions = .ok statements →
      expressions.length = statements.length ∧
      ∀ {index expression statement}, expressions[index]? = some expression →
        statements[index]? = some statement →
        Adapted targets site (path ++ [offset + index]) expression statement
  | path, offset, [], statements, compiled => by
      cases compiled
      exact ⟨rfl, fun found => nomatch found⟩
  | path, offset, expression :: rest, statements, compiled => by
      unfold compileAll at compiled
      obtain ⟨first, firstOk, equal⟩ := bind_eq_ok compiled
      obtain ⟨others, othersOk, equal⟩ := bind_eq_ok equal
      cases equal
      have head := compile_adapted (path ++ [offset]) expression first firstOk
      obtain ⟨length, each⟩ := compileAll_adapted path (offset + 1) rest others othersOk
      refine ⟨congrArg Nat.succ length, ?_⟩
      intro index value statement found held
      cases index with
      | zero =>
          cases found
          cases held
          exact head
      | succ index =>
          have later := each found held
          rwa [Nat.add_right_comm] at later

theorem compileOptional_adapted : ∀ (path : List Nat) (expression : Option Expression)
    (statement : Option QueryStatement),
    compileOptional targets site path expression = .ok statement →
      ∀ boundary, statement = some boundary →
        ∃ value, expression = some value ∧ Adapted targets site path value boundary
  | path, none, statement, compiled => by
      cases compiled
      nofun
  | path, some expression, statement, compiled => by
      unfold compileOptional at compiled
      obtain ⟨inner, innerOk, equal⟩ := bind_eq_ok compiled
      cases equal
      rintro boundary ⟨⟩
      exact ⟨expression, rfl, compile_adapted path expression inner innerOk⟩

end

end Compiled

/-! ## Plans -/

def Origin.isScope : Origin → Bool
  | .scope _ _ => true
  | _ => false

/-- The value that a slot stands for, with the fields that adapt it. -/
def StandsFor (translator : PostgreSQLQueryTranslator) (operation : QueryOperation)
    (origin : Origin) (adapters : List FieldLayout) (value : Json) : Prop :=
  match origin with
  | .expression site path part => ∃ root targets inner,
      operation.expressionAt site = some root ∧ TargetsAt translator operation site targets ∧
        root.at? path = some inner ∧ inner.contribution part = some value ∧
        adapters = root.adaptersAt targets path
  | origin => adapters = [] ∧ Supplies translator operation origin value

/-- Every slot of an accepted plan but those of the scope carries the value that
it stands for, encoded for the fields that adapt it. -/
theorem PostgreSQLQueryTranslator.compile_plan_adapted {translator : PostgreSQLQueryTranslator}
    {plan : Plan} {context : TranslationContext} {compiled : CompiledQuery}
    (accepted : translator.compile plan context = .ok compiled)
    {parameter : Parameter Origin Json} (bound : parameter ∈ compiled.statement.parameters)
    (foreign : parameter.origin.isScope = false) :
    ∃ adapters value, StandsFor translator plan.operation parameter.origin adapters value ∧
      encodeAll adapters value = .ok parameter.value := by
  have covers : Covers translator plan.operation fun origin encoded =>
      origin.isScope = false → ∃ adapters value,
        StandsFor translator plan.operation origin adapters value ∧
          encodeAll adapters value = .ok encoded := by
    constructor
    · intro site root targets statement given chosen compiledOk
      refine ⟨(compile_compiles [] root statement compiledOk).carries.aligned, ?_⟩
      intro parameter member _
      obtain ⟨rest, part, inner, value, same, reached, binds, encoded⟩ :=
        compile_adapted [] root statement compiledOk parameter member
      rw [same]
      exact ⟨_, value, ⟨root, targets, inner, given, chosen, reached, binds, rfl⟩, encoded⟩
    · intro origin value other supplied _
      cases origin with
      | expression site path part => exact nomatch other
      | _ => exact ⟨[], value, ⟨rfl, supplied⟩, rfl⟩
  exact (compile_plan_covered covers accepted).values parameter bound foreign

end MeridianPostgreSQL.Query
