import Mathlib.Logic.Relation
import MeridianPostgreSQL.Query.Expressions

/-! # Compiled expressions

Every successful compilation as a derivation, one rule for each kind of
expression, so that a property of the SQL is proved rule by rule. -/

namespace MeridianPostgreSQL.Query

open Settings

/-- A value encoded for a field, or more than one field in turn. -/
def Encoded : Json → Json → Prop :=
  Relation.ReflTransGen fun value encoded =>
    ∃ field, encodeQueryValue field value = .ok encoded

def ParameterEncoded (before after : Parameter Origin Json) : Prop :=
  after.origin = before.origin ∧ Encoded before.value after.value

/-- Adaptation encodes the values of the parameters and changes nothing else. -/
structure Adapts (before after : QueryStatement) : Prop where
  command : after.command = before.command
  parameters : List.Forall₂ ParameterEncoded before.parameters after.parameters

theorem Adapts.refl (statement : QueryStatement) : Adapts statement statement :=
  ⟨rfl, List.forall₂_same.mpr fun _ _ => ⟨rfl, .refl⟩⟩

theorem encoded_origins {before after : List (Parameter Origin Json)}
    (each : List.Forall₂ ParameterEncoded before after) :
    after.map Parameter.origin = before.map Parameter.origin := by
  induction each with
  | nil => rfl
  | cons first rest induction =>
      rw [List.map_cons, List.map_cons, first.1, induction]

theorem Adapts.aligned {before after : QueryStatement} (adapts : Adapts before after)
    (aligned : Aligned before) : Aligned after := by
  unfold Aligned
  rw [adapts.command, encoded_origins adapts.parameters, aligned.slots_eq]

inductive Compiles (targets : Targets) (site : Site) :
    List Nat → Expression → QueryStatement → Prop
  | field {path resource name found} (named : targets.field resource name = .ok found) :
      Compiles targets site path (.field resource name)
        ⟨ident [found.1, found.2.column.text], []⟩
  | literal {path value} :
      Compiles targets site path (.literal value) (literalStatement site path value)
  | point {path longitude latitude} :
      Compiles targets site path (.point [longitude, latitude])
        (pointStatement site path longitude latitude)
  | unary {path kind operand statement}
      (operand_compiles : Compiles targets site (path ++ [0]) operand statement) :
      Compiles targets site path (.unary kind operand) (unaryStatement kind statement)
  | boolean {path kind operands statements} (length : operands.length = statements.length)
      (each : ∀ {index expression statement}, operands[index]? = some expression →
        statements[index]? = some statement →
        Compiles targets site (path ++ [index]) expression statement) :
      Compiles targets site path (.boolean kind operands) (booleanStatement kind statements)
  | binary {path kind leftValue rightValue left right leftAdapted rightAdapted}
      (left_compiles : Compiles targets site (path ++ [0]) leftValue left)
      (right_compiles : Compiles targets site (path ++ [1]) rightValue right)
      (left_adapts : Adapts left leftAdapted) (right_adapts : Adapts right rightAdapted) :
      Compiles targets site path (.binary kind leftValue rightValue)
        (binaryStatement kind leftAdapted rightAdapted)
  | hasPrefix {path leftValue rightValue left right}
      (left_compiles : Compiles targets site (path ++ [0]) leftValue left)
      (right_compiles : Compiles targets site (path ++ [1]) rightValue right) :
      Compiles targets site path (.hasPrefix leftValue rightValue)
        (prefixStatement left right)
  | containsJson {path leftValue rightValue left right rightAdapted field}
      (leftField : targets.expressionField leftValue = .ok (some field))
      (json : field.isJson = true)
      (left_compiles : Compiles targets site (path ++ [0]) leftValue left)
      (right_compiles : Compiles targets site (path ++ [1]) rightValue right)
      (right_adapts : Adapts right rightAdapted) :
      Compiles targets site path (.contains leftValue rightValue)
        (containsStatement left rightAdapted)
  | containsText {path leftValue rightValue left right}
      (leftField : ∀ field, targets.expressionField leftValue = .ok (some field) →
        field.isJson = false)
      (left_compiles : Compiles targets site (path ++ [0]) leftValue left)
      (right_compiles : Compiles targets site (path ++ [1]) rightValue right) :
      Compiles targets site path (.contains leftValue rightValue)
        (positionStatement left right)
  | isNull {path operand expected statement}
      (operand_compiles : Compiles targets site (path ++ [0]) operand statement) :
      Compiles targets site path (.isNull operand expected)
        (isNullStatement statement expected)
  | membership {path negated operand values statement items adapted}
      (operand_compiles : Compiles targets site (path ++ [0]) operand statement)
      (nonempty : values ≠ []) (length : values.length = items.length)
      (each : ∀ {index expression item}, values[index]? = some expression →
        items[index]? = some item →
        Compiles targets site (path ++ [index + 1]) expression item)
      (adapts : List.Forall₂ Adapts items adapted) :
      Compiles targets site path (.membership negated operand values)
        (membershipStatement negated statement adapted)
  | timestampRange {path operand start finish includeStart includeEnd statement
      startStatement finishStatement}
      (operand_compiles : Compiles targets site (path ++ [0]) operand statement)
      (start_same : start.isSome = startStatement.isSome)
      (start_compiles : ∀ {expression boundary}, start = some expression →
        startStatement = some boundary →
        Compiles targets site (path ++ [1]) expression boundary)
      (finish_same : finish.isSome = finishStatement.isSome)
      (finish_compiles : ∀ {expression boundary}, finish = some expression →
        finishStatement = some boundary →
        Compiles targets site (path ++ [2]) expression boundary) :
      Compiles targets site path
        (.timestampRange operand start finish includeStart includeEnd)
        (rangeStatement statement startStatement finishStatement includeStart includeEnd)
  | documentPath {path document pointer statement}
      (document_compiles : Compiles targets site (path ++ [0]) document statement) :
      Compiles targets site path (.documentPath document pointer)
        (documentPathStatement site path statement pointer)
  | fullText {path fields query statements} (nonempty : fields ≠ [])
      (length : fields.length = statements.length)
      (each : ∀ {index expression statement}, fields[index]? = some expression →
        statements[index]? = some statement →
        Compiles targets site (path ++ [index]) expression statement) :
      Compiles targets site path (.fullText fields query)
        (fullTextStatement site path statements query)
  | distance {path leftValue rightValue left right}
      (left_compiles : Compiles targets site (path ++ [0]) leftValue left)
      (right_compiles : Compiles targets site (path ++ [1]) rightValue right) :
      Compiles targets site path (.distance leftValue rightValue)
        (distanceStatement left right)
  | distanceWithin {path leftValue rightValue limit left right}
      (left_compiles : Compiles targets site (path ++ [0]) leftValue left)
      (right_compiles : Compiles targets site (path ++ [1]) rightValue right) :
      Compiles targets site path (.distanceWithin leftValue rightValue limit)
        (distanceWithinStatement site path left right limit)
  | count {path distinct} :
      Compiles targets site path (.aggregate .count none distinct) ⟨[.text "count(*)"], []⟩
  | aggregate {path function operand distinct statement}
      (known : function ≠ .percentile)
      (operand_compiles : Compiles targets site (path ++ [0]) operand statement) :
      Compiles targets site path (.aggregate function (some operand) distinct)
        (aggregateStatement function statement distinct)

/-! ## Adaptation -/

theorem bind_eq_ok {α β : Type} {first : Compiled α} {next : α → Compiled β} {result : β}
    (equal : (first >>= next) = .ok result) :
    ∃ value, first = .ok value ∧ next value = .ok result := by
  cases first with
  | error error => exact nomatch equal
  | ok value => exact ⟨value, rfl, equal⟩

theorem map_eq_ok {α β : Type} {value : Compiled α} {f : α → β} {result : β}
    (equal : value.map f = .ok result) : ∃ found, value = .ok found ∧ f found = result := by
  cases value with
  | error error => exact nomatch equal
  | ok found => exact ⟨found, rfl, Except.ok.inj equal⟩

/-- A result behind a check that refuses. -/
theorem check_eq_ok {α : Type} {refused : Prop} [Decidable refused] {failure : CompileError}
    {rest : Compiled α} {result : α}
    (equal : (if refused then .error failure else rest) = .ok result) :
    ¬ refused ∧ rest = .ok result := by
  by_cases failed : refused
  · rw [if_pos failed] at equal
    exact nomatch equal
  · exact ⟨failed, (if_neg failed).symm.trans equal⟩

theorem mapM_eq_ok {α β : Type} {f : α → Compiled β} {items : List α} {results : List β}
    (equal : items.mapM f = .ok results) :
    List.Forall₂ (fun item result => f item = .ok result) items results := by
  induction items generalizing results with
  | nil =>
      rw [List.mapM_nil] at equal
      cases equal
      exact .nil
  | cons item rest induction =>
      rw [List.mapM_cons] at equal
      rcases bind_eq_ok equal with ⟨first, found, equal⟩
      rcases bind_eq_ok equal with ⟨others, all, equal⟩
      cases equal
      exact .cons found (induction all)

/-- Every item of a list that is compiled has a result. -/
theorem mapM_result {α β : Type} {f : α → Compiled β} {items : List α} {results : List β}
    (mapped : items.mapM f = .ok results) {item : α} (listed : item ∈ items) :
    ∃ result ∈ results, f item = .ok result := by
  have pairs := mapM_eq_ok mapped
  clear mapped
  induction pairs with
  | nil => cases listed
  | cons made _ induction =>
      rcases List.mem_cons.mp listed with rfl | later
      · exact ⟨_, List.mem_cons_self, made⟩
      · obtain ⟨result, inside, made⟩ := induction later
        exact ⟨result, List.mem_cons_of_mem _ inside, made⟩

theorem adaptParameter_encoded {field : FieldLayout} {before after : Parameter Origin Json}
    (adapted : adaptParameter field before = .ok after) : ParameterEncoded before after := by
  rcases map_eq_ok adapted with ⟨value, encoded, rfl⟩
  exact ⟨rfl, .single ⟨field, encoded⟩⟩

theorem adapt_adapts {statement after : QueryStatement} {field : FieldLayout}
    (adapted : adapt statement field = .ok after) : Adapts statement after := by
  rcases map_eq_ok adapted with ⟨parameters, mapped, rfl⟩
  exact ⟨rfl, (mapM_eq_ok mapped).imp fun _ _ => adaptParameter_encoded⟩

theorem adaptIf_adapts {chosen : Bool} {field : Option FieldLayout}
    {statement after : QueryStatement} (adapted : adaptIf chosen field statement = .ok after) :
    Adapts statement after := by
  unfold adaptIf at adapted
  cases field with
  | none =>
      cases adapted
      exact .refl statement
  | some field =>
      cases chosen with
      | false =>
          cases adapted
          exact .refl statement
      | true => exact adapt_adapts adapted

/-! ## Derivations -/

variable {targets : Targets} {site : Site}

mutual

theorem compile_compiles : ∀ (path : List Nat) (expression : Expression)
    (statement : QueryStatement), compile targets site path expression = .ok statement →
      Compiles targets site path expression statement
  | path, .field resource name, statement, compiled => by
      unfold compile at compiled
      rcases bind_eq_ok compiled with ⟨found, named, equal⟩
      cases equal
      exact .field named
  | path, .literal value, statement, compiled => by
      cases compiled
      exact .literal
  | path, .parameter name, statement, compiled => nomatch compiled
  | path, .point coordinates, statement, compiled => by
      unfold compile at compiled
      split at compiled
      · cases compiled
        exact .point
      · exact nomatch compiled
  | path, .unary kind operand, statement, compiled => by
      unfold compile at compiled
      rcases bind_eq_ok compiled with ⟨inner, operandOk, equal⟩
      cases equal
      exact .unary (compile_compiles _ operand inner operandOk)
  | path, .boolean kind operands, statement, compiled => by
      unfold compile at compiled
      rcases bind_eq_ok compiled with ⟨statements, operandsOk, equal⟩
      cases equal
      rcases compileAll_compiles path 0 operands statements operandsOk with ⟨length, each⟩
      exact .boolean length fun found held => by simpa using each found held
  | path, .binary kind leftValue rightValue, statement, compiled => by
      unfold compile at compiled
      rcases bind_eq_ok compiled with ⟨left, leftOk, equal⟩
      rcases bind_eq_ok equal with ⟨right, rightOk, equal⟩
      rcases bind_eq_ok equal with ⟨leftField, _, equal⟩
      rcases bind_eq_ok equal with ⟨rightField, _, equal⟩
      rcases bind_eq_ok equal with ⟨rightAdapted, rightAdapts, equal⟩
      rcases bind_eq_ok equal with ⟨leftAdapted, leftAdapts, equal⟩
      cases equal
      exact .binary (compile_compiles _ leftValue left leftOk)
        (compile_compiles _ rightValue right rightOk) (adaptIf_adapts leftAdapts)
        (adaptIf_adapts rightAdapts)
  | path, .hasPrefix leftValue rightValue, statement, compiled => by
      unfold compile at compiled
      rcases bind_eq_ok compiled with ⟨left, leftOk, equal⟩
      rcases bind_eq_ok equal with ⟨right, rightOk, equal⟩
      cases equal
      exact .hasPrefix (compile_compiles _ leftValue left leftOk)
        (compile_compiles _ rightValue right rightOk)
  | path, .contains leftValue rightValue, statement, compiled => by
      unfold compile at compiled
      rcases bind_eq_ok compiled with ⟨leftField, fieldOk, equal⟩
      rcases bind_eq_ok equal with ⟨left, leftOk, equal⟩
      rcases bind_eq_ok equal with ⟨right, rightOk, equal⟩
      have leftCompiles := compile_compiles _ leftValue left leftOk
      have rightCompiles := compile_compiles _ rightValue right rightOk
      split at equal
      · rename_i field
        split at equal
        · rename_i json
          rcases bind_eq_ok equal with ⟨rightAdapted, adapted, equal⟩
          cases equal
          exact .containsJson fieldOk json leftCompiles rightCompiles (adapt_adapts adapted)
        · rename_i text
          cases equal
          refine .containsText ?_ leftCompiles rightCompiles
          intro other same
          rw [fieldOk] at same
          cases same
          simpa using text
      · cases equal
        refine .containsText ?_ leftCompiles rightCompiles
        intro other same
        exact nomatch fieldOk.symm.trans same
  | path, .isNull operand expected, statement, compiled => by
      unfold compile at compiled
      rcases bind_eq_ok compiled with ⟨inner, operandOk, equal⟩
      cases equal
      exact .isNull (compile_compiles _ operand inner operandOk)
  | path, .membership negated operand values, statement, compiled => by
      unfold compile at compiled
      rcases bind_eq_ok compiled with ⟨inner, operandOk, equal⟩
      split at equal
      · exact nomatch equal
      · rename_i nonempty
        rcases bind_eq_ok equal with ⟨items, itemsOk, equal⟩
        rcases bind_eq_ok equal with ⟨field, _, equal⟩
        rcases bind_eq_ok equal with ⟨adapted, adaptedOk, equal⟩
        cases equal
        rcases compileAll_compiles path 1 values items itemsOk with ⟨length, each⟩
        refine .membership (compile_compiles _ operand inner operandOk) (by simpa using nonempty)
          length ?_ ((mapM_eq_ok adaptedOk).imp fun _ _ => adaptIf_adapts)
        intro index expression item found held
        simpa [Nat.add_comm] using each found held
  | path, .timestampRange operand start finish includeStart includeEnd, statement,
      compiled => by
      unfold compile at compiled
      rcases bind_eq_ok compiled with ⟨inner, operandOk, equal⟩
      rcases bind_eq_ok equal with ⟨startStatement, startOk, equal⟩
      rcases bind_eq_ok equal with ⟨finishStatement, finishOk, equal⟩
      cases equal
      have starts := compileOptional_compiles _ start startStatement startOk
      have finishes := compileOptional_compiles _ finish finishStatement finishOk
      exact .timestampRange (compile_compiles _ operand inner operandOk) starts.1 starts.2
        finishes.1 finishes.2
  | path, .documentPath document pointer, statement, compiled => by
      unfold compile at compiled
      rcases bind_eq_ok compiled with ⟨inner, documentOk, equal⟩
      split at equal
      · cases equal
        exact .documentPath (compile_compiles _ document inner documentOk)
      · exact nomatch equal
  | path, .fullText fields query, statement, compiled => by
      unfold compile at compiled
      split at compiled
      · exact nomatch compiled
      · rename_i nonempty
        rcases bind_eq_ok compiled with ⟨statements, fieldsOk, equal⟩
        cases equal
        rcases compileAll_compiles path 0 fields statements fieldsOk with ⟨length, each⟩
        exact .fullText (by simpa using nonempty) length fun found held => by
          simpa using each found held
  | path, .distance leftValue rightValue, statement, compiled => by
      unfold compile at compiled
      rcases bind_eq_ok compiled with ⟨left, leftOk, equal⟩
      rcases bind_eq_ok equal with ⟨right, rightOk, equal⟩
      cases equal
      exact .distance (compile_compiles _ leftValue left leftOk)
        (compile_compiles _ rightValue right rightOk)
  | path, .distanceWithin leftValue rightValue limit, statement, compiled => by
      unfold compile at compiled
      rcases bind_eq_ok compiled with ⟨left, leftOk, equal⟩
      rcases bind_eq_ok equal with ⟨right, rightOk, equal⟩
      cases equal
      exact .distanceWithin (compile_compiles _ leftValue left leftOk)
        (compile_compiles _ rightValue right rightOk)
  | path, .aggregate function operand distinct, statement, compiled => by
      unfold compile at compiled
      rcases bind_eq_ok compiled with ⟨inner, operandOk, equal⟩
      have compiles := compileOptional_compiles _ operand inner operandOk
      cases inner with
      | none =>
          have absent : operand = none := by simpa using compiles.1
          subst absent
          dsimp only at equal
          split at equal
          · rename_i counts
            cases equal
            subst counts
            exact .count
          · exact nomatch equal
      | some inner =>
          dsimp only at equal
          split at equal
          · exact nomatch equal
          · rename_i known
            cases equal
            rcases Option.isSome_iff_exists.mp compiles.1 with ⟨value, rfl⟩
            exact .aggregate known (compiles.2 rfl rfl)

theorem compileAll_compiles : ∀ (path : List Nat) (offset : Nat)
    (expressions : List Expression) (statements : List QueryStatement),
    compileAll targets site path offset expressions = .ok statements →
      expressions.length = statements.length ∧
      ∀ {index expression statement}, expressions[index]? = some expression →
        statements[index]? = some statement →
        Compiles targets site (path ++ [offset + index]) expression statement
  | path, offset, [], statements, compiled => by
      cases compiled
      exact ⟨rfl, fun found => nomatch found⟩
  | path, offset, expression :: rest, statements, compiled => by
      unfold compileAll at compiled
      rcases bind_eq_ok compiled with ⟨first, firstOk, equal⟩
      rcases bind_eq_ok equal with ⟨others, othersOk, equal⟩
      cases equal
      have head := compile_compiles (path ++ [offset]) expression first firstOk
      rcases compileAll_compiles path (offset + 1) rest others othersOk with ⟨length, each⟩
      refine ⟨congrArg Nat.succ length, ?_⟩
      intro index value statement found held
      cases index with
      | zero =>
          cases found
          cases held
          exact head
      | succ index =>
          have later := each found held
          rwa [Nat.add_right_comm] at later

theorem compileOptional_compiles : ∀ (path : List Nat) (expression : Option Expression)
    (statement : Option QueryStatement),
    compileOptional targets site path expression = .ok statement →
      expression.isSome = statement.isSome ∧
      ∀ {value boundary}, expression = some value → statement = some boundary →
        Compiles targets site path value boundary
  | path, none, statement, compiled => by
      cases compiled
      exact ⟨rfl, fun found => nomatch found⟩
  | path, some expression, statement, compiled => by
      unfold compileOptional at compiled
      rcases bind_eq_ok compiled with ⟨inner, innerOk, equal⟩
      cases equal
      have compiles := compile_compiles path expression inner innerOk
      refine ⟨rfl, ?_⟩
      intro value boundary same held
      cases same
      cases held
      exact compiles

end

end MeridianPostgreSQL.Query
