import MeridianPostgreSQL.Query.PlanAlignment

/-! # Values and SQL text

Requests that differ only in their values are compiled to one text. -/

namespace MeridianPostgreSQL.Query

open Settings

/-- Expressions that agree except for literals, coordinates, document
pointers, full-text queries and distances. -/
inductive SameShape : Expression → Expression → Prop
  | field {resource name} : SameShape (.field resource name) (.field resource name)
  | literal {value other} : SameShape (.literal value) (.literal other)
  | parameter {name} : SameShape (.parameter name) (.parameter name)
  | point {coordinates others} (length : coordinates.length = others.length) :
      SameShape (.point coordinates) (.point others)
  | unary {kind operand other} (same : SameShape operand other) :
      SameShape (.unary kind operand) (.unary kind other)
  | boolean {kind operands others} (length : operands.length = others.length)
      (each : ∀ {index : Nat} {operand other}, operands[index]? = some operand →
        others[index]? = some other → SameShape operand other) :
      SameShape (.boolean kind operands) (.boolean kind others)
  | binary {kind left right otherLeft otherRight} (left_same : SameShape left otherLeft)
      (right_same : SameShape right otherRight) :
      SameShape (.binary kind left right) (.binary kind otherLeft otherRight)
  | hasPrefix {left right otherLeft otherRight} (left_same : SameShape left otherLeft)
      (right_same : SameShape right otherRight) :
      SameShape (.hasPrefix left right) (.hasPrefix otherLeft otherRight)
  | contains {left right otherLeft otherRight} (left_same : SameShape left otherLeft)
      (right_same : SameShape right otherRight) :
      SameShape (.contains left right) (.contains otherLeft otherRight)
  | isNull {operand other expected} (same : SameShape operand other) :
      SameShape (.isNull operand expected) (.isNull other expected)
  | membership {negated operand other values others} (same : SameShape operand other)
      (length : values.length = others.length)
      (each : ∀ {index : Nat} {value other}, values[index]? = some value →
        others[index]? = some other → SameShape value other) :
      SameShape (.membership negated operand values) (.membership negated other others)
  | timestampRange {operand other start otherStart finish otherFinish includeStart includeEnd}
      (same : SameShape operand other) (starts : start.isSome = otherStart.isSome)
      (start_same : ∀ {boundary other}, start = some boundary → otherStart = some other →
        SameShape boundary other)
      (finishes : finish.isSome = otherFinish.isSome)
      (finish_same : ∀ {boundary other}, finish = some boundary → otherFinish = some other →
        SameShape boundary other) :
      SameShape (.timestampRange operand start finish includeStart includeEnd)
        (.timestampRange other otherStart otherFinish includeStart includeEnd)
  | documentPath {document other pointer otherPointer} (same : SameShape document other) :
      SameShape (.documentPath document pointer) (.documentPath other otherPointer)
  | fullText {fields others query otherQuery} (length : fields.length = others.length)
      (each : ∀ {index : Nat} {field other}, fields[index]? = some field →
        others[index]? = some other → SameShape field other) :
      SameShape (.fullText fields query) (.fullText others otherQuery)
  | distance {left right otherLeft otherRight} (left_same : SameShape left otherLeft)
      (right_same : SameShape right otherRight) :
      SameShape (.distance left right) (.distance otherLeft otherRight)
  | distanceWithin {left right otherLeft otherRight limit otherLimit}
      (left_same : SameShape left otherLeft) (right_same : SameShape right otherRight) :
      SameShape (.distanceWithin left right limit)
        (.distanceWithin otherLeft otherRight otherLimit)
  | aggregate {function operand other distinct} (present : operand.isSome = other.isSome)
      (same : ∀ {inner otherInner}, operand = some inner → other = some otherInner →
        SameShape inner otherInner) :
      SameShape (.aggregate function operand distinct) (.aggregate function other distinct)

/-! ## Expressions -/

theorem SameShape.expressionField {targets : Targets} {expression other : Expression}
    (same : SameShape expression other) :
    targets.expressionField expression = targets.expressionField other := by
  cases same <;> rfl

/-- The statements of two lists of operands, compared place by place. -/
theorem commands_eq {operands others : List Expression}
    {statements otherStatements : List QueryStatement}
    (length : operands.length = others.length)
    (compiled : operands.length = statements.length)
    (otherCompiled : others.length = otherStatements.length)
    (each : ∀ {index : Nat} {operand other statement otherStatement},
      operands[index]? = some operand → others[index]? = some other →
      statements[index]? = some statement → otherStatements[index]? = some otherStatement →
      statement.command = otherStatement.command) :
    statements.map BoundStatement.command = otherStatements.map BoundStatement.command := by
  apply List.ext_getElem
  · simp only [List.length_map]
    omega
  · intro index first second
    rw [List.length_map] at first second
    rw [List.getElem_map, List.getElem_map]
    have inside : index < operands.length := by omega
    have within : index < others.length := by omega
    exact each (List.getElem?_eq_getElem inside) (List.getElem?_eq_getElem within)
      (List.getElem?_eq_getElem first) (List.getElem?_eq_getElem second)

theorem conjunction_command {statements others : List QueryStatement}
    (same : statements.map BoundStatement.command = others.map BoundStatement.command) :
    (conjunction statements).command = (conjunction others).command := by
  cases statements with
  | nil => rw [List.map_eq_nil_iff.mp same.symm]
  | cons statement rest =>
      cases others with
      | nil => exact nomatch same
      | cons other others =>
          simp only [conjunction]
          rw [same]

theorem disjunction_command {statements others : List QueryStatement}
    (same : statements.map BoundStatement.command = others.map BoundStatement.command) :
    (disjunction statements).command = (disjunction others).command := by
  cases statements with
  | nil => rw [List.map_eq_nil_iff.mp same.symm]
  | cons statement rest =>
      cases others with
      | nil => exact nomatch same
      | cons other others =>
          simp only [disjunction]
          rw [same]

theorem rangeStatement_command {operand other : QueryStatement}
    {start otherStart finish otherFinish : Option QueryStatement} {includeStart includeEnd : Bool}
    (same : operand.command = other.command)
    (starts : start.map BoundStatement.command = otherStart.map BoundStatement.command)
    (finishes : finish.map BoundStatement.command = otherFinish.map BoundStatement.command) :
    (rangeStatement operand start finish includeStart includeEnd).command =
      (rangeStatement other otherStart otherFinish includeStart includeEnd).command := by
  have boundary : ∀ (operator : String) (operand : QueryStatement)
      (side : Option QueryStatement),
      (side.map (boundaryStatement operator operand)).toList.map BoundStatement.command =
        ((side.map BoundStatement.command).map fun command =>
          operand.command ++ [Piece.text operator] ++ command).toList := by
    intro operator operand side
    cases side <;> rfl
  apply conjunction_command
  rw [List.map_append, List.map_append, boundary, boundary, boundary, boundary, same, starts,
    finishes]

theorem optional_command {boundary other : Option Expression}
    {statement otherStatement : Option QueryStatement}
    (present : boundary.isSome = other.isSome)
    (compiled : boundary.isSome = statement.isSome)
    (otherCompiled : other.isSome = otherStatement.isSome)
    (each : ∀ {inner otherInner written otherWritten}, boundary = some inner →
      other = some otherInner → statement = some written → otherStatement = some otherWritten →
      written.command = otherWritten.command) :
    statement.map BoundStatement.command = otherStatement.map BoundStatement.command := by
  cases statement with
  | none =>
      cases otherStatement with
      | none => rfl
      | some otherWritten => simp_all
  | some written =>
      cases otherStatement with
      | none => simp_all
      | some otherWritten =>
          rcases Option.isSome_iff_exists.mp compiled with ⟨inner, rfl⟩
          rcases Option.isSome_iff_exists.mp otherCompiled with ⟨otherInner, rfl⟩
          rw [Option.map_some, Option.map_some, each rfl rfl rfl rfl]

section Expressions

variable {targets : Targets} {site : Site}

theorem Compiles.command_eq {path : List Nat} {expression other : Expression}
    {statement otherStatement : QueryStatement} (same : SameShape expression other)
    (compiles : Compiles targets site path expression statement)
    (otherCompiles : Compiles targets site path other otherStatement) :
    statement.command = otherStatement.command := by
  induction same generalizing path statement otherStatement with
  | field =>
      cases compiles with
      | field named =>
          cases otherCompiles with
          | field otherNamed =>
              cases named.symm.trans otherNamed
              rfl
  | literal =>
      cases compiles
      cases otherCompiles
      rfl
  | parameter => cases compiles
  | point length =>
      cases compiles
      cases otherCompiles
      rfl
  | unary same induction =>
      cases compiles with
      | unary compiled =>
          cases otherCompiles with
          | unary otherCompiled =>
              simp only [unaryStatement]
              rw [induction compiled otherCompiled]
  | @boolean kind operands others length each induction =>
      cases compiles with
      | boolean statements compiled =>
          cases otherCompiles with
          | boolean otherStatements otherCompiled =>
              have commands := commands_eq length statements otherStatements
                fun found otherFound held otherHeld =>
                  induction found otherFound (compiled found held)
                    (otherCompiled otherFound otherHeld)
              cases kind with
              | and => exact conjunction_command commands
              | or => exact disjunction_command commands
  | binary left_same right_same left right =>
      cases compiles with
      | binary left_compiles right_compiles left_adapts right_adapts =>
          cases otherCompiles with
          | binary otherLeft otherRight otherLeft_adapts otherRight_adapts =>
              simp only [binaryStatement]
              rw [left_adapts.command, right_adapts.command, otherLeft_adapts.command,
                otherRight_adapts.command, left left_compiles otherLeft,
                right right_compiles otherRight]
  | hasPrefix left_same right_same left right =>
      cases compiles with
      | hasPrefix left_compiles right_compiles =>
          cases otherCompiles with
          | hasPrefix otherLeft otherRight =>
              simp only [prefixStatement]
              rw [left left_compiles otherLeft, right right_compiles otherRight]
  | contains left_same right_same left right =>
      cases compiles with
      | containsJson leftField json left_compiles right_compiles right_adapts =>
          cases otherCompiles with
          | containsJson _ _ otherLeft otherRight otherRight_adapts =>
              simp only [containsStatement]
              rw [right_adapts.command, otherRight_adapts.command, left left_compiles otherLeft,
                right right_compiles otherRight]
          | containsText otherField otherLeft otherRight =>
              have text := otherField _ (left_same.expressionField.symm.trans leftField)
              cases json.symm.trans text
      | containsText leftField left_compiles right_compiles =>
          cases otherCompiles with
          | containsJson otherField json otherLeft otherRight otherRight_adapts =>
              have text := leftField _ (left_same.expressionField.trans otherField)
              cases json.symm.trans text
          | containsText _ otherLeft otherRight =>
              simp only [positionStatement]
              rw [left left_compiles otherLeft, right right_compiles otherRight]
  | isNull same induction =>
      cases compiles with
      | isNull compiled =>
          cases otherCompiles with
          | isNull otherCompiled =>
              simp only [isNullStatement]
              rw [induction compiled otherCompiled]
  | membership same length each operand induction =>
      cases compiles with
      | membership operand_compiles _ items compiled adapts =>
          cases otherCompiles with
          | membership otherOperand _ otherItems otherCompiled otherAdapts =>
              have commands := commands_eq length (items.trans adapts.length_eq)
                (otherItems.trans otherAdapts.length_eq)
                fun found otherFound held otherHeld => by
                  rcases adapts_at adapts held with ⟨before, listed, changed⟩
                  rcases adapts_at otherAdapts otherHeld with ⟨otherBefore, otherListed,
                    otherChanged⟩
                  rw [changed.command, otherChanged.command]
                  exact induction found otherFound (compiled found listed)
                    (otherCompiled otherFound otherListed)
              simp only [membershipStatement]
              rw [operand operand_compiles otherOperand, commands]
  | timestampRange same starts start_same finishes finish_same operand start finish =>
      cases compiles with
      | timestampRange operand_compiles start_present start_compiles finish_present
          finish_compiles =>
          cases otherCompiles with
          | timestampRange otherOperand otherStart_present otherStart otherFinish_present
              otherFinish =>
              apply rangeStatement_command (operand operand_compiles otherOperand)
              · exact optional_command starts start_present otherStart_present
                  fun given otherGiven held otherHeld =>
                    start given otherGiven (start_compiles given held)
                      (otherStart otherGiven otherHeld)
              · exact optional_command finishes finish_present otherFinish_present
                  fun given otherGiven held otherHeld =>
                    finish given otherGiven (finish_compiles given held)
                      (otherFinish otherGiven otherHeld)
  | documentPath same induction =>
      cases compiles with
      | documentPath compiled =>
          cases otherCompiles with
          | documentPath otherCompiled =>
              simp only [documentPathStatement]
              rw [induction compiled otherCompiled]
  | fullText length each induction =>
      cases compiles with
      | fullText _ statements compiled =>
          cases otherCompiles with
          | fullText _ otherStatements otherCompiled =>
              have commands := commands_eq length statements otherStatements
                fun found otherFound held otherHeld =>
                  induction found otherFound (compiled found held)
                    (otherCompiled otherFound otherHeld)
              simp only [fullTextStatement]
              rw [commands]
  | distance left_same right_same left right =>
      cases compiles with
      | distance left_compiles right_compiles =>
          cases otherCompiles with
          | distance otherLeft otherRight =>
              simp only [distanceStatement]
              rw [left left_compiles otherLeft, right right_compiles otherRight]
  | distanceWithin left_same right_same left right =>
      cases compiles with
      | distanceWithin left_compiles right_compiles =>
          cases otherCompiles with
          | distanceWithin otherLeft otherRight =>
              simp only [distanceWithinStatement]
              rw [left left_compiles otherLeft, right right_compiles otherRight]
  | aggregate present same induction =>
      cases compiles with
      | count =>
          cases otherCompiles with
          | count => rfl
          | aggregate known compiled => cases present
      | aggregate known compiled =>
          cases otherCompiles with
          | count => cases present
          | aggregate _ otherCompiled =>
              simp only [aggregateStatement]
              rw [induction rfl rfl compiled otherCompiled]

end Expressions

/-! ## Operations -/

def OptionalShape (expression other : Option Expression) : Prop :=
  expression.isSome = other.isSome ∧
    ∀ {inner otherInner}, expression = some inner → other = some otherInner →
      SameShape inner otherInner

/-- Lists that agree place by place. -/
def Pairwise {α : Type} (same : α → α → Prop) (items others : List α) : Prop :=
  items.length = others.length ∧
    ∀ {index : Nat} {item other}, items[index]? = some item → others[index]? = some other →
      same item other

theorem Pairwise.map_eq {α β : Type} {same : α → α → Prop} {items others : List α}
    (pairwise : Pairwise same items others) (read : α → β)
    (each : ∀ {item other}, same item other → read item = read other) :
    items.map read = others.map read := by
  apply List.ext_getElem
  · simpa using pairwise.1
  · intro index first second
    rw [List.length_map] at first second
    rw [List.getElem_map, List.getElem_map]
    exact each (pairwise.2 (List.getElem?_eq_getElem first) (List.getElem?_eq_getElem second))

/-- Traversals that agree except for values and the record they start from. -/
structure Traversal.SameShape (traversal other : Traversal) : Prop where
  relationCollections : traversal.relationCollections = other.relationCollections
  resolved : traversal.resolved = other.resolved
  allNeighbors : traversal.allNeighbors = other.allNeighbors
  registryFingerprint : traversal.registryFingerprint = other.registryFingerprint
  recordFilter : OptionalShape traversal.recordFilter other.recordFilter
  relationPredicates : ∀ ref, OptionalShape (traversal.relationPredicates.lookup ref)
    (other.relationPredicates.lookup ref)
  direction : traversal.direction = other.direction
  minDepth : traversal.minDepth = other.minDepth
  maxDepth : traversal.maxDepth = other.maxDepth
  startCollection : traversal.startCollection = other.startCollection

/-- Operations that agree except for values, the record a traversal starts
from and the size of a page. -/
structure QueryOperation.SameShape (operation other : QueryOperation) : Prop where
  kind : operation.kind = other.kind
  targets : operation.targets = other.targets
  joins : Pairwise (fun join other => join.target = other.target ∧ join.left = other.left ∧
    Query.SameShape join.on other.on) operation.joins other.joins
  filter : OptionalShape operation.filter other.filter
  projection : Pairwise (fun projection other => projection.resultAlias = other.resultAlias ∧
    Query.SameShape projection.expression other.expression) operation.projection other.projection
  includeTotal : operation.includeTotal = other.includeTotal
  resultShape : operation.resultShape = other.resultShape
  grouping : Pairwise Query.SameShape operation.grouping other.grouping
  aggregates : Pairwise (fun aggregate other => aggregate.name = other.name ∧
    Query.SameShape aggregate.aggregate other.aggregate) operation.aggregates other.aggregates
  order : Pairwise (fun item other => item.direction = other.direction ∧
    item.nulls = other.nulls ∧ Query.SameShape item.expression other.expression)
    operation.order other.order
  cursor : operation.page.cursor = other.page.cursor
  pointInTime : operation.page.pointInTime = other.page.pointInTime
  consistency : operation.consistency = other.consistency
  budget : operation.budget = other.budget
  traversal_present : operation.traversal.isSome = other.traversal.isSome
  traversal : ∀ {traversal otherTraversal}, operation.traversal = some traversal →
    other.traversal = some otherTraversal → traversal.SameShape otherTraversal

/-! ## Compiled lists -/

/-- What two lists that agree place by place are compiled to. -/
theorem mapM_measure {α β γ : Type} {items others : List α} {same : α → α → Prop}
    {f g : α × Nat → Compiled β} {results otherResults : List β} (measure : β → γ)
    (shapes : Pairwise same items others) (compiled : items.zipIdx.mapM f = .ok results)
    (otherCompiled : others.zipIdx.mapM g = .ok otherResults)
    (each : ∀ {index item other result otherResult}, same item other →
      f (item, index) = .ok result → g (other, index) = .ok otherResult →
      measure result = measure otherResult) :
    results.map measure = otherResults.map measure := by
  have mapped := mapM_eq_ok compiled
  have otherMapped := mapM_eq_ok otherCompiled
  have length := mapped.length_eq
  have otherLength := otherMapped.length_eq
  rw [List.length_zipIdx] at length otherLength
  apply List.ext_getElem
  · rw [List.length_map, List.length_map, ← length, ← otherLength, shapes.1]
  · intro index first second
    rw [List.length_map] at first second
    rw [List.getElem_map, List.getElem_map]
    have inside : index < items.length := length ▸ first
    have within : index < others.length := otherLength ▸ second
    have result := mapped.get (by rwa [List.length_zipIdx]) first
    have otherResult := otherMapped.get (by rwa [List.length_zipIdx]) second
    simp only [List.get_eq_getElem, List.getElem_zipIdx, Nat.zero_add] at result otherResult
    exact each (shapes.2 (List.getElem?_eq_getElem inside) (List.getElem?_eq_getElem within))
      result otherResult

end MeridianPostgreSQL.Query
