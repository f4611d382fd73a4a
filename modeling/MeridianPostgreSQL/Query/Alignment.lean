import MeridianPostgreSQL.Query.Compilation
import MeridianPostgreSQL.Query.Translator

/-! # Alignment of slots and parameters

The slots of a statement carry its parameters in order, and each parameter is
the value of the part of the request that its slot stands for. -/

namespace MeridianPostgreSQL.Query

open Settings

/-! ## Parts of an expression -/

namespace Expression

def child : Expression → Nat → Option Expression
  | .unary _ operand, index => [operand][index]?
  | .boolean _ operands, index => operands[index]?
  | .binary _ left right, index => [left, right][index]?
  | .hasPrefix left right, index => [left, right][index]?
  | .contains left right, index => [left, right][index]?
  | .isNull operand _, index => [operand][index]?
  | .membership _ operand values, index => (operand :: values)[index]?
  | .timestampRange operand start finish _ _, index =>
      match index with
      | 0 => some operand
      | 1 => start
      | 2 => finish
      | _ => none
  | .documentPath document _, index => [document][index]?
  | .fullText fields _, index => fields[index]?
  | .distance left right, index => [left, right][index]?
  | .distanceWithin left right _, index => [left, right][index]?
  | .aggregate _ operand _, index => operand.toList[index]?
  | _, _ => none

/-- The expression a path leads to. -/
def at? (expression : Expression) : List Nat → Option Expression
  | [] => some expression
  | index :: rest => (expression.child index).bind fun inner => inner.at? rest

/-- The value that an expression itself binds. -/
def contribution : Expression → Part → Option Json
  | .literal value, .literal => some value
  | .point [longitude, _], .longitude => some longitude
  | .point [_, latitude], .latitude => some latitude
  | .documentPath _ pointer, .pointer =>
      some (.array (((pointer.drop 1).toString.splitOn "/").map unescapeSegment))
  | .fullText _ query, .query => some query
  | .distanceWithin _ _ limit, .distance => some limit
  | _, _ => none

end Expression

/-- The value is the one that an expression below the path binds. -/
def Contributes (site : Site) (path : List Nat) (expression : Expression) (origin : Origin)
    (value : Json) : Prop :=
  ∃ rest part inner contributed, origin = .expression site (path ++ rest) part ∧
    expression.at? rest = some inner ∧ inner.contribution part = some contributed ∧
    Encoded contributed value

section Contributions

variable {site : Site} {path : List Nat} {expression inner : Expression} {origin : Origin}
  {value : Json}

theorem Contributes.here {part : Part} (contributed : expression.contribution part = some value) :
    Contributes site path expression (.expression site path part) value :=
  ⟨[], part, expression, value, by rw [List.append_nil], rfl, contributed, .refl⟩

theorem Contributes.below {index : Nat} (child : expression.child index = some inner)
    (contributes : Contributes site (path ++ [index]) inner origin value) :
    Contributes site path expression origin value := by
  rcases contributes with ⟨rest, part, deepest, contributed, same, reached, binds, encoded⟩
  refine ⟨index :: rest, part, deepest, contributed, ?_, ?_, binds, encoded⟩
  · rw [same, List.append_assoc, List.singleton_append]
  · rw [Expression.at?, child]
    exact reached

theorem Contributes.encoded {before after : Parameter Origin Json}
    (changed : ParameterEncoded before after)
    (contributes : Contributes site path expression before.origin before.value) :
    Contributes site path expression after.origin after.value := by
  rcases contributes with ⟨rest, part, inner, contributed, same, reached, binds, encoded⟩
  exact ⟨rest, part, inner, contributed, changed.1.trans same, reached, binds,
    encoded.trans changed.2⟩

end Contributions

/-- A statement whose slots carry what the expression contributes. -/
abbrev Carries (site : Site) (path : List Nat) (expression : Expression)
    (statement : QueryStatement) : Prop :=
  Supplied (Contributes site path expression) statement

section Carrying

variable {site : Site} {path : List Nat} {expression inner : Expression}
  {statement : QueryStatement}

theorem Adapts.carries {before after : QueryStatement} (adapts : Adapts before after)
    (carries : Carries site path expression before) : Carries site path expression after := by
  refine ⟨adapts.aligned carries.aligned, ?_⟩
  intro parameter member
  rcases List.mem_iff_getElem.mp member with ⟨index, inside, rfl⟩
  have length := adapts.parameters.length_eq
  exact Contributes.encoded (adapts.parameters.get (length ▸ inside) inside)
    (carries.values _ (List.getElem_mem (length ▸ inside)))

theorem Carries.below {index : Nat} (carries : Carries site (path ++ [index]) inner statement)
    (child : expression.child index = some inner) :
    ∀ parameter ∈ statement.parameters,
      Contributes site path expression parameter.origin parameter.value :=
  fun parameter member => .below child (carries.values parameter member)

/-- A list of expressions and the statements they compile to. -/
theorem exists_index {α β : Type} {lefts : List α} {rights : List β}
    (length : lefts.length = rights.length) {right : β} (member : right ∈ rights) :
    ∃ (index : Nat) (left : α), lefts[index]? = some left ∧ rights[index]? = some right := by
  rcases List.mem_iff_getElem.mp member with ⟨index, inside, rfl⟩
  exact ⟨index, _, List.getElem?_eq_getElem (length ▸ inside), List.getElem?_eq_getElem inside⟩

/-- The statements of a list of operands, from the child at the offset on. -/
theorem carries_each (expression : Expression) (offset : Nat) {operands : List Expression}
    {statements : List QueryStatement} (length : operands.length = statements.length)
    (each : ∀ {index operand statement}, operands[index]? = some operand →
      statements[index]? = some statement →
      Carries site (path ++ [index + offset]) operand statement)
    (child : ∀ {index operand}, operands[index]? = some operand →
      expression.child (index + offset) = some operand) :
    ∀ statement ∈ statements, Carries site path expression statement := by
  intro statement listed
  rcases exists_index length listed with ⟨index, operand, found, held⟩
  exact ⟨(each found held).aligned, (each found held).below (child found)⟩

theorem adapts_at {items adapted : List QueryStatement}
    (adapts : List.Forall₂ Adapts items adapted) {index : Nat} {after : QueryStatement}
    (held : adapted[index]? = some after) :
    ∃ before, items[index]? = some before ∧ Adapts before after := by
  rcases List.getElem?_eq_some_iff.mp held with ⟨inside, rfl⟩
  have length := adapts.length_eq
  exact ⟨_, List.getElem?_eq_getElem (length ▸ inside), adapts.get (length ▸ inside) inside⟩

end Carrying

/-! ## Expressions -/

section Expressions

variable {targets : Targets} {site : Site}

theorem rangeStatement_carries {path : List Nat} {operand : Expression}
    {start finish : Option Expression} {includeStart includeEnd : Bool}
    {statement : QueryStatement} {startStatement finishStatement : Option QueryStatement}
    (operand_carries : Carries site (path ++ [0]) operand statement)
    (start_carries : ∀ boundary, startStatement = some boundary → ∃ expression,
      start = some expression ∧ Carries site (path ++ [1]) expression boundary)
    (finish_carries : ∀ boundary, finishStatement = some boundary → ∃ expression,
      finish = some expression ∧ Carries site (path ++ [2]) expression boundary) :
    Carries site path (.timestampRange operand start finish includeStart includeEnd)
      (rangeStatement statement startStatement finishStatement includeStart includeEnd) := by
  have boundary : ∀ {operator index expression side}, Expression.child
      (.timestampRange operand start finish includeStart includeEnd) index = some expression →
      Carries site (path ++ [index]) expression side →
      Carries site path (.timestampRange operand start finish includeStart includeEnd)
        (boundaryStatement operator statement side) := by
    intro operator index expression side child carries
    constructor
    · simp [boundaryStatement, operand_carries.aligned.slots_eq, carries.aligned.slots_eq]
    · exact List.forall_mem_append.mpr ⟨operand_carries.below rfl, carries.below child⟩
  apply Supplied.conjunction
  intro part member
  rcases List.mem_append.mp member with inside | inside
  · rcases Option.map_eq_some_iff.mp (Option.mem_toList.mp inside) with ⟨side, found, rfl⟩
    rcases start_carries side found with ⟨expression, same, carries⟩
    exact boundary (by rw [Expression.child, same]) carries
  · rcases Option.map_eq_some_iff.mp (Option.mem_toList.mp inside) with ⟨side, found, rfl⟩
    rcases finish_carries side found with ⟨expression, same, carries⟩
    exact boundary (by rw [Expression.child, same]) carries

/-- Every compiled expression binds its own values, in the order of its slots. -/
theorem Compiles.carries {path : List Nat} {expression : Expression}
    {statement : QueryStatement} (compiles : Compiles targets site path expression statement) :
    Carries site path expression statement := by
  induction compiles with
  | field named => exact ⟨by simp, by simp⟩
  | literal =>
      exact ⟨rfl, List.forall_mem_singleton.mpr (.here rfl)⟩
  | point =>
      refine ⟨rfl, ?_⟩
      intro parameter member
      rcases List.mem_pair.mp member with rfl | rfl
      · exact .here rfl
      · exact .here rfl
  | unary operand_compiles induction =>
      refine ⟨by simp [unaryStatement, induction.aligned.slots_eq], ?_⟩
      exact induction.below rfl
  | @boolean path kind operands statements length each induction =>
      have carried := carries_each (.boolean kind operands) 0 length induction
        fun found => found
      cases kind with
      | and => exact .conjunction carried
      | or => exact .disjunction carried
  | binary left_compiles right_compiles left_adapts right_adapts left_carries right_carries =>
      have left := left_adapts.carries left_carries
      have right := right_adapts.carries right_carries
      refine ⟨by simp [binaryStatement, left.aligned.slots_eq, right.aligned.slots_eq], ?_⟩
      exact List.forall_mem_append.mpr ⟨left.below rfl, right.below rfl⟩
  | hasPrefix left_compiles right_compiles left right =>
      refine ⟨by simp [prefixStatement, left.aligned.slots_eq, right.aligned.slots_eq], ?_⟩
      exact List.forall_mem_append.mpr ⟨left.below rfl, right.below rfl⟩
  | containsJson leftField json left_compiles right_compiles right_adapts left right_carries =>
      have right := right_adapts.carries right_carries
      refine ⟨by simp [containsStatement, left.aligned.slots_eq, right.aligned.slots_eq], ?_⟩
      exact List.forall_mem_append.mpr ⟨left.below rfl, right.below rfl⟩
  | containsText leftField left_compiles right_compiles left right =>
      refine ⟨by simp [positionStatement, left.aligned.slots_eq, right.aligned.slots_eq], ?_⟩
      exact List.forall_mem_append.mpr ⟨right.below rfl, left.below rfl⟩
  | isNull operand_compiles induction =>
      refine ⟨by simp [isNullStatement, induction.aligned.slots_eq], ?_⟩
      exact induction.below rfl
  | @membership path negated operand values statement items adapted operand_compiles nonempty
      length each adapts operand_carries induction =>
      have carries : ∀ {index value statement}, values[index]? = some value →
          adapted[index]? = some statement →
          Carries site (path ++ [index + 1]) value statement := by
        intro index value statement found held
        rcases adapts_at adapts held with ⟨before, listed, changed⟩
        exact changed.carries (induction found listed)
      have carried := carries_each (.membership negated operand values) 1
        (length.trans adapts.length_eq) carries fun found => found
      refine ⟨?_, ?_⟩
      · simp [membershipStatement, operand_carries.aligned.slots_eq, slots_commands carried]
      · exact List.forall_mem_append.mpr ⟨operand_carries.below rfl, supplied_all carried⟩
  | timestampRange operand_compiles start_same start_compiles finish_same finish_compiles
      operand_carries start_carries finish_carries =>
      apply rangeStatement_carries operand_carries
      · intro boundary found
        rcases Option.isSome_iff_exists.mp (start_same.trans (found ▸ rfl)) with ⟨inner, given⟩
        exact ⟨inner, given, start_carries given found⟩
      · intro boundary found
        rcases Option.isSome_iff_exists.mp (finish_same.trans (found ▸ rfl)) with ⟨inner, given⟩
        exact ⟨inner, given, finish_carries given found⟩
  | documentPath document_compiles induction =>
      refine ⟨by simp [documentPathStatement, induction.aligned.slots_eq, slot, bound], ?_⟩
      exact List.forall_mem_append.mpr
        ⟨induction.below rfl, List.forall_mem_singleton.mpr (.here rfl)⟩
  | @fullText path fields query statements nonempty length each induction =>
      have carried := carries_each (.fullText fields query) 0 length induction
        fun found => found
      refine ⟨by simp [fullTextStatement, slots_commands carried, slot, bound], ?_⟩
      exact List.forall_mem_append.mpr
        ⟨supplied_all carried, List.forall_mem_singleton.mpr (.here rfl)⟩
  | distance left_compiles right_compiles left right =>
      refine ⟨by simp [distanceStatement, left.aligned.slots_eq, right.aligned.slots_eq], ?_⟩
      exact List.forall_mem_append.mpr ⟨left.below rfl, right.below rfl⟩
  | distanceWithin left_compiles right_compiles left right =>
      refine ⟨by simp [distanceWithinStatement, left.aligned.slots_eq, right.aligned.slots_eq,
        slot, bound], ?_⟩
      exact List.forall_mem_append.mpr
        ⟨List.forall_mem_append.mpr ⟨left.below rfl, right.below rfl⟩,
          List.forall_mem_singleton.mpr (.here rfl)⟩
  | count => exact ⟨rfl, by simp⟩
  | aggregate known operand_compiles induction =>
      refine ⟨by simp [aggregateStatement, induction.aligned.slots_eq], ?_⟩
      exact induction.below rfl

end Expressions

end MeridianPostgreSQL.Query
