import MeridianPostgreSQL.Query.Fragments
import MeridianPostgreSQL.Query.Values

/-! # Query expressions

The expressions a query may hold, and the SQL that `_ExpressionCompiler`
compiles them to. -/

namespace MeridianPostgreSQL.Query

open Settings

inductive UnaryKind where
  | not
  | negate
deriving DecidableEq

inductive BooleanKind where
  | and
  | or
deriving DecidableEq

inductive BinaryKind where
  | eq
  | ne
  | lt
  | lte
  | gt
  | gte
  | add
  | subtract
  | multiply
  | divide
  | modulo
deriving DecidableEq

inductive AggregateFunction where
  | count
  | sum
  | avg
  | min
  | max
  | percentile
deriving DecidableEq

inductive Expression where
  | field (resource : Option String) (name : String)
  | literal (value : Json)
  | parameter (name : String)
  | point (coordinates : List Json)
  | unary (kind : UnaryKind) (operand : Expression)
  | boolean (kind : BooleanKind) (operands : List Expression)
  | binary (kind : BinaryKind) (left right : Expression)
  | hasPrefix (left right : Expression)
  | contains (left right : Expression)
  | isNull (operand : Expression) (expected : Bool)
  | membership (negated : Bool) (operand : Expression) (values : List Expression)
  | timestampRange (operand : Expression) (start finish : Option Expression)
      (includeStart includeEnd : Bool)
  | documentPath (document : Expression) (pointer : String)
  | fullText (fields : List Expression) (query : Json)
  | distance (left right : Expression)
  | distanceWithin (left right : Expression) (limit : Json)
  | aggregate (function : AggregateFunction) (operand : Option Expression)
      (distinct : Bool)

/-! ## Where a slot comes from -/

/-- The expressions of a request. -/
inductive Site where
  | join (index : Nat)
  | filter
  | projection (index : Nat)
  | grouping (index : Nat)
  | aggregate (index : Nat)
  | order (index : Nat)
  | relation (index : Nat)
  | condition
deriving DecidableEq

/-- The values one expression may bind. -/
inductive Part where
  | literal
  | longitude
  | latitude
  | pointer
  | query
  | distance
deriving DecidableEq

/-- A part of a request that a slot stands for. The path leads from the
expression at the site to the one that binds the value. -/
inductive Origin where
  | expression (site : Site) (path : List Nat) (part : Part)
  | scope (tableAlias column : String)
  | cursor (index : Nat)
  | limit
  | relationRef (index : Nat)
  | startCollection
  | startId
  | minDepth
  | maxDepth
  | value (name : String)
  | longitude (name : String)
  | latitude (name : String)
  | version
  | outbox (tableAlias name : String)
deriving DecidableEq

abbrev QueryStatement := BoundStatement Origin Json

abbrev Compiled (α : Type) := Except CompileError α

/-! ## Fields -/

/-- The Resources a query reads, in order, with their aliases and layouts. -/
structure Targets where
  aliases : List (String × String)
  layouts : List (String × ResourceLayout)

/-- `_canonical_resource` -/
def Targets.canonicalResource (targets : Targets) (value : String) : Compiled String :=
  if value ∈ targets.aliases.map Prod.fst then .ok value
  else
    match (targets.aliases.map Prod.fst).filter fun key =>
        (":" ++ value).toList.isSuffixOf key.toList ||
          ("." ++ value).toList.isSuffixOf key.toList with
    | [canonical] => .ok canonical
    | _ => .error (.value s!"field Resource '{value}' is not an unambiguous target")

def Targets.resource (targets : Targets) (resource : Option String) : Compiled String :=
  match resource with
  | some value => targets.canonicalResource value
  | none =>
      match targets.aliases with
      | [] => .error (.key "")
      | first :: _ => .ok first.1

def lookupKey {α : Type} (entries : List (String × α)) (key : String) : Compiled α :=
  match entries.lookup key with
  | some value => .ok value
  | none => .error (.key key)

/-- `_field` -/
def Targets.field (targets : Targets) (resource : Option String) (name : String) :
    Compiled (String × FieldLayout) := do
  let canonical ← targets.resource resource
  let layout ← lookupKey targets.layouts canonical
  match layout.field name with
  | none =>
      .error (.value s!"field '{name}' is absent from pinned resource {canonical}")
  | some field => do
      let tableAlias ← lookupKey targets.aliases canonical
      .ok (tableAlias, field)

/-- `_expression_field` -/
def Targets.expressionField (targets : Targets) (expression : Expression) :
    Compiled (Option FieldLayout) :=
  match expression with
  | .field resource name => (targets.field resource name).map fun found => some found.2
  | _ => .ok none

/-- `_is_literal` -/
def Expression.isLiteral : Expression → Bool
  | .literal _ => true
  | _ => false

/-! ## One kind at a time -/

def adaptParameter (field : FieldLayout) (parameter : Parameter Origin Json) :
    Compiled (Parameter Origin Json) :=
  (encodeQueryValue field parameter.value).map fun value => ⟨parameter.origin, value⟩

/-- `_adapt` -/
def adapt (statement : QueryStatement) (field : FieldLayout) : Compiled QueryStatement :=
  (statement.parameters.mapM (adaptParameter field)).map fun parameters =>
    ⟨statement.command, parameters⟩

def adaptIf (chosen : Bool) (field : Option FieldLayout) (statement : QueryStatement) :
    Compiled QueryStatement :=
  match field with
  | some field => if chosen then adapt statement field else .ok statement
  | none => .ok statement

def BinaryKind.operator : BinaryKind → String
  | .eq => " = "
  | .ne => " <> "
  | .lt => " < "
  | .lte => " <= "
  | .gt => " > "
  | .gte => " >= "
  | .add => " + "
  | .subtract => " - "
  | .multiply => " * "
  | .divide => " / "
  | .modulo => " % "

section Kinds

variable (site : Site) (path : List Nat)

def bound (part : Part) (value : Json) : Parameter Origin Json :=
  ⟨.expression site path part, value⟩

def slot (part : Part) : Piece Origin := .slot (.expression site path part)

def literalStatement (value : Json) : QueryStatement :=
  ⟨[slot site path .literal], [bound site path .literal value]⟩

def pointStatement (longitude latitude : Json) : QueryStatement :=
  ⟨[.text "ST_SetSRID(ST_MakePoint(", slot site path .longitude, .text ", ",
      slot site path .latitude, .text "), 4326)::geography"],
    [bound site path .longitude longitude, bound site path .latitude latitude]⟩

def unaryStatement (kind : UnaryKind) (operand : QueryStatement) : QueryStatement :=
  ⟨[Piece.text (match kind with | .not => "NOT " | .negate => "-"), .text "("] ++
      operand.command ++ [Piece.text ")"], operand.parameters⟩

def booleanStatement (kind : BooleanKind) (operands : List QueryStatement) :
    QueryStatement :=
  match kind with
  | .and => conjunction operands
  | .or => disjunction operands

def binaryStatement (kind : BinaryKind) (left right : QueryStatement) : QueryStatement :=
  ⟨[Piece.text "("] ++ left.command ++ [Piece.text kind.operator] ++ right.command ++
    [Piece.text ")"],
    left.parameters ++ right.parameters⟩

def prefixStatement (left right : QueryStatement) : QueryStatement :=
  ⟨[Piece.text "("] ++ left.command ++ [Piece.text " LIKE (replace(replace(replace(("] ++
      right.command ++
      [Piece.text " )::text, '\\\\', '\\\\\\\\'), '%', '\\%'), '_', '\\_') || '%') ESCAPE '\\\\')"],
    left.parameters ++ right.parameters⟩

def containsStatement (left right : QueryStatement) : QueryStatement :=
  ⟨left.command ++ [Piece.text " @> ("] ++ right.command ++ [Piece.text ")::jsonb"],
    left.parameters ++ right.parameters⟩

/-- The text is searched from its end: the operands change places. -/
def positionStatement (left right : QueryStatement) : QueryStatement :=
  ⟨[Piece.text "position(("] ++ right.command ++ [Piece.text ")::text in "] ++ left.command ++
      [Piece.text ") > 0"], right.parameters ++ left.parameters⟩

def isNullStatement (operand : QueryStatement) (expected : Bool) : QueryStatement :=
  ⟨[Piece.text "("] ++ operand.command ++
      [Piece.text (if expected then " IS NULL)" else " IS NOT NULL)")], operand.parameters⟩

def membershipStatement (negated : Bool) (operand : QueryStatement)
    (items : List QueryStatement) : QueryStatement :=
  ⟨[Piece.text "("] ++ operand.command ++ [Piece.text (if negated then " NOT IN (" else " IN (")] ++
      joined ", " (items.map BoundStatement.command) ++ [Piece.text "))"],
    operand.parameters ++ allParameters items⟩

/-- One side of a `timestampRange`. -/
def boundaryStatement (operator : String) (operand boundary : QueryStatement) :
    QueryStatement :=
  ⟨operand.command ++ [Piece.text operator] ++ boundary.command,
    operand.parameters ++ boundary.parameters⟩

def rangeStatement (operand : QueryStatement) (start finish : Option QueryStatement)
    (includeStart includeEnd : Bool) : QueryStatement :=
  conjunction
    ((start.map (boundaryStatement (if includeStart then " >= " else " > ") operand)).toList ++
      (finish.map (boundaryStatement (if includeEnd then " <= " else " < ") operand)).toList)

def unescapeSegment (segment : String) : Json :=
  .string ((segment.replace "~1" "/").replace "~0" "~")

def documentPathStatement (document : QueryStatement) (pointer : String) : QueryStatement :=
  ⟨[Piece.text "("] ++ document.command ++
      [Piece.text " #> ", slot site path .pointer, .text "::text[])"],
    document.parameters ++ [bound site path .pointer
      (.array (((pointer.drop 1).toString.splitOn "/").map unescapeSegment))]⟩

def fullTextStatement (fields : List QueryStatement) (query : Json) : QueryStatement :=
  ⟨[Piece.text "to_tsvector('simple', concat_ws(' ', "] ++
      joined ", " (fields.map BoundStatement.command) ++
      [Piece.text ")) @@ websearch_to_tsquery('simple', ", slot site path .query, .text ")"],
    allParameters fields ++ [bound site path .query query]⟩

def distanceStatement (left right : QueryStatement) : QueryStatement :=
  ⟨[Piece.text "ST_Distance("] ++ left.command ++ [Piece.text ", "] ++ right.command ++
    [Piece.text ")"],
    left.parameters ++ right.parameters⟩

def distanceWithinStatement (left right : QueryStatement) (limit : Json) :
    QueryStatement :=
  ⟨[Piece.text "ST_DWithin("] ++ left.command ++ [Piece.text ", "] ++ right.command ++
      [Piece.text ", ", slot site path .distance, .text ")"],
    left.parameters ++ right.parameters ++ [bound site path .distance limit]⟩

end Kinds

def AggregateFunction.call : AggregateFunction → String
  | .count => "count("
  | .sum => "sum("
  | .avg => "avg("
  | .min => "min("
  | .max => "max("
  | .percentile => "percentile("

def aggregateStatement (function : AggregateFunction) (operand : QueryStatement)
    (distinct : Bool) : QueryStatement :=
  ⟨[Piece.text function.call, .text (if distinct then "DISTINCT " else "")] ++ operand.command ++
      [Piece.text ")"], operand.parameters⟩

/-! ## Compilation -/

mutual

/-- `_ExpressionCompiler.compile` -/
def compile (targets : Targets) (site : Site) (path : List Nat) :
    Expression → Compiled QueryStatement
  | .field resource name => do
      let found ← targets.field resource name
      .ok ⟨ident [found.1, found.2.column.text], []⟩
  | .literal value => .ok (literalStatement site path value)
  | .parameter _ =>
      .error (.value "unbound query parameters cannot cross the Adapter SPI")
  | .point coordinates =>
      match coordinates with
      | [longitude, latitude] => .ok (pointStatement site path longitude latitude)
      | _ => .error (.value "point requires longitude and latitude")
  | .unary kind operand => do
      let operand ← compile targets site (path ++ [0]) operand
      .ok (unaryStatement kind operand)
  | .boolean kind operands => do
      let operands ← compileAll targets site path 0 operands
      .ok (booleanStatement kind operands)
  | .binary kind leftValue rightValue => do
      let left ← compile targets site (path ++ [0]) leftValue
      let right ← compile targets site (path ++ [1]) rightValue
      let leftField ← targets.expressionField leftValue
      let rightField ← targets.expressionField rightValue
      let right ← adaptIf rightValue.isLiteral leftField right
      let left ← adaptIf leftValue.isLiteral rightField left
      .ok (binaryStatement kind left right)
  | .hasPrefix left right => do
      let left ← compile targets site (path ++ [0]) left
      let right ← compile targets site (path ++ [1]) right
      .ok (prefixStatement left right)
  | .contains leftValue rightValue => do
      let leftField ← targets.expressionField leftValue
      let left ← compile targets site (path ++ [0]) leftValue
      let right ← compile targets site (path ++ [1]) rightValue
      match leftField with
      | some field =>
          if field.isJson then do
            let right ← adapt right field
            .ok (containsStatement left right)
          else .ok (positionStatement left right)
      | none => .ok (positionStatement left right)
  | .isNull operand expected => do
      let operand ← compile targets site (path ++ [0]) operand
      .ok (isNullStatement operand expected)
  | .membership negated operandValue values => do
      let operand ← compile targets site (path ++ [0]) operandValue
      if values.isEmpty then .error (.value "membership requires candidates")
      else do
        let items ← compileAll targets site path 1 values
        let field ← targets.expressionField operandValue
        let items ← items.mapM (adaptIf true field)
        .ok (membershipStatement negated operand items)
  | .timestampRange operand start finish includeStart includeEnd => do
      let operand ← compile targets site (path ++ [0]) operand
      let start ← compileOptional targets site (path ++ [1]) start
      let finish ← compileOptional targets site (path ++ [2]) finish
      .ok (rangeStatement operand start finish includeStart includeEnd)
  | .documentPath document pointer => do
      let document ← compile targets site (path ++ [0]) document
      if pointer.startsWith "/" then .ok (documentPathStatement site path document pointer)
      else .error (.value "document path must be an RFC 6901 pointer")
  | .fullText fields query =>
      if fields.isEmpty then .error (.value "full-text requires fields")
      else do
        let fields ← compileAll targets site path 0 fields
        .ok (fullTextStatement site path fields query)
  | .distance left right => do
      let left ← compile targets site (path ++ [0]) left
      let right ← compile targets site (path ++ [1]) right
      .ok (distanceStatement left right)
  | .distanceWithin left right limit => do
      let left ← compile targets site (path ++ [0]) left
      let right ← compile targets site (path ++ [1]) right
      .ok (distanceWithinStatement site path left right limit)
  | .aggregate function operand distinct => do
      let operand ← compileOptional targets site (path ++ [0]) operand
      match operand with
      | none =>
          if function = .count then .ok ⟨[.text "count(*)"], []⟩
          else .error (.type "query expression must be a canonical mapping")
      | some operand =>
          if function = .percentile then
            .error (.value
              "percentile requires an explicit percentile in V1 and is unavailable")
          else .ok (aggregateStatement function operand distinct)

def compileAll (targets : Targets) (site : Site) (path : List Nat) (index : Nat) :
    List Expression → Compiled (List QueryStatement)
  | [] => .ok []
  | expression :: rest => do
      let first ← compile targets site (path ++ [index]) expression
      let others ← compileAll targets site path (index + 1) rest
      .ok (first :: others)

def compileOptional (targets : Targets) (site : Site) (path : List Nat) :
    Option Expression → Compiled (Option QueryStatement)
  | none => .ok none
  | some expression => do
      let statement ← compile targets site path expression
      .ok (some statement)

end

end MeridianPostgreSQL.Query
