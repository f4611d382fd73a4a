import MeridianPostgreSQL.Foundation.Patterns
import MeridianPostgreSQL.Query.LiteralTypes

/-! # Prefix filters

What the server makes of the text of a prefix filter. A backslash between
quotes is an ordinary character there, and `LIKE` takes an escape string of
one character. -/

namespace MeridianPostgreSQL.Query

open Settings

/-! ## Tokens -/

inductive SqlToken (Origin : Type) where
  | word (letters : List Char)
  | text (characters : List Char)
  | name (identifier : String)
  | slot (origin : Origin)
  | opening
  | closing
  | comma
  | period
  | concat
  | cast
deriving DecidableEq

/-- What the server is in the middle of reading. -/
inductive Reading where
  | between
  | word (letters : List Char)
  | text (characters : List Char)
  /-- A quote that ends a text unless another one follows. -/
  | quote (characters : List Char)
  | bar
  | colon

section Tokens

variable {Origin : Type}

abbrev Tokens (Origin : Type) := List (SqlToken Origin)

def beginToken (character : Char) : Option (Tokens Origin × Reading) :=
  if character = ' ' then some ([], .between)
  else if character = '\'' then some ([], .text [])
  else if character.isAlpha then some ([], .word [character])
  else if character = '(' then some ([.opening], .between)
  else if character = ')' then some ([.closing], .between)
  else if character = ',' then some ([.comma], .between)
  else if character = '.' then some ([.period], .between)
  else if character = '|' then some ([], .bar)
  else if character = ':' then some ([], .colon)
  else none

def readCharacter (reading : Reading) (character : Char) : Option (Tokens Origin × Reading) :=
  match reading with
  | .between => beginToken character
  | .word letters =>
      if character.isAlpha then some ([], .word (letters ++ [character]))
      else (beginToken character).map fun next => (.word letters :: next.1, next.2)
  | .text characters =>
      if character = '\'' then some ([], .quote characters)
      else some ([], .text (characters ++ [character]))
  | .quote characters =>
      if character = '\'' then some ([], .text (characters ++ ['\'']))
      else (beginToken character).map fun next => (.text characters :: next.1, next.2)
  | .bar => if character = '|' then some ([.concat], .between) else none
  | .colon => if character = ':' then some ([.cast], .between) else none

def finishReading : Reading → Option (Tokens Origin)
  | .between => some []
  | .word letters => some [.word letters]
  | .quote characters => some [.text characters]
  | _ => none

def readText (reading : Reading) : List Char → Option (Tokens Origin)
  | [] => finishReading reading
  | character :: rest => do
      let next ← readCharacter reading character
      let others ← readText next.2 rest
      some (next.1 ++ others)

def Piece.tokens : Piece Origin → Option (Tokens Origin)
  | .text sql => readText .between sql.toList
  | .name identifier => some [.name identifier]
  | .slot origin => some [.slot origin]

/-- The tokens of a command. -/
def Sql.tokens (command : Sql Origin) : Option (Tokens Origin) :=
  (command.mapM Piece.tokens).map List.flatten

end Tokens

/-! ## Expressions of the server -/

inductive TextExpression (Origin : Type) where
  | column (path : List String)
  | parameter (origin : Origin)
  | text (characters : List Char)
  | cast (operand : TextExpression Origin) (type : List Char)
  | replace (operand search replacement : TextExpression Origin)
  | concat (left right : TextExpression Origin)
  | like (operand pattern escape : TextExpression Origin)
deriving DecidableEq

section Parsing

variable {Origin : Type}

/-- An expression that was read, and the tokens after it. -/
abbrev Parsed (Origin : Type) := TextExpression Origin × Tokens Origin

def expectToken [DecidableEq Origin] (token : SqlToken Origin) (tokens : Tokens Origin) :
    Option (Tokens Origin) :=
  match tokens with
  | first :: rest => if first = token then some rest else none
  | [] => none

def parseCasts (operand : TextExpression Origin) : Tokens Origin → Option (Parsed Origin)
  | .cast :: .word type :: rest => parseCasts (.cast operand type) rest
  | tokens => some (operand, tokens)

def parsePath (path : List String) : Tokens Origin → Option (Parsed Origin)
  | .period :: .name identifier :: rest => parsePath (path ++ [identifier]) rest
  | tokens => some (.column path, tokens)

variable [DecidableEq Origin]

mutual

/-- `operand [LIKE pattern [ESCAPE escape]]`. A pattern is escaped by a backslash
unless it says otherwise. -/
def parseExpression : Nat → Tokens Origin → Option (Parsed Origin)
  | 0, _ => none
  | fuel + 1, tokens => do
      let (operand, rest) ← parseConcat fuel tokens
      match rest with
      | .word ['L', 'I', 'K', 'E'] :: rest =>
          let (pattern, rest) ← parseConcat fuel rest
          match rest with
          | .word ['E', 'S', 'C', 'A', 'P', 'E'] :: rest =>
              let (escape, rest) ← parseConcat fuel rest
              some (.like operand pattern escape, rest)
          | rest => some (.like operand pattern (.text ['\\']), rest)
      | rest => some (operand, rest)

def parseConcat : Nat → Tokens Origin → Option (Parsed Origin)
  | 0, _ => none
  | fuel + 1, tokens => do
      let (first, rest) ← parsePrimary fuel tokens
      let (operand, rest) ← parseCasts first rest
      parseConcats fuel operand rest

def parseConcats : Nat → TextExpression Origin → Tokens Origin → Option (Parsed Origin)
  | 0, _, _ => none
  | fuel + 1, left, tokens =>
      match tokens with
      | .concat :: rest => do
          let (first, rest) ← parsePrimary fuel rest
          let (right, rest) ← parseCasts first rest
          parseConcats fuel (.concat left right) rest
      | tokens => some (left, tokens)

def parsePrimary : Nat → Tokens Origin → Option (Parsed Origin)
  | 0, _ => none
  | fuel + 1, tokens =>
      match tokens with
      | .text characters :: rest => some (.text characters, rest)
      | .slot origin :: rest => some (.parameter origin, rest)
      | .name identifier :: rest => parsePath [identifier] rest
      | .opening :: rest => do
          let (inner, rest) ← parseExpression fuel rest
          let rest ← expectToken .closing rest
          some (inner, rest)
      | .word ['r', 'e', 'p', 'l', 'a', 'c', 'e'] :: .opening :: rest => do
          let (operand, rest) ← parseExpression fuel rest
          let rest ← expectToken .comma rest
          let (search, rest) ← parseExpression fuel rest
          let rest ← expectToken .comma rest
          let (replacement, rest) ← parseExpression fuel rest
          let rest ← expectToken .closing rest
          some (.replace operand search replacement, rest)
      | _ => none

end

/-- A command that is one expression. -/
def Sql.parse (command : Sql Origin) : Option (TextExpression Origin) := do
  let tokens ← command.tokens
  match parseExpression (4 * tokens.length + 4) tokens with
  | some (expression, []) => some expression
  | _ => none

end Parsing

/-! ## Evaluation -/

inductive SqlValue where
  | text (characters : List Char)
  | boolean (holds : Bool)
deriving DecidableEq

inductive SqlError where
  | type
  | undefined
  | escapeString
  | pattern
deriving DecidableEq

def SqlValue.characters : SqlValue → Except SqlError (List Char)
  | .text characters => .ok characters
  | .boolean _ => .error .type

def likeWildcards : Patterns.Wildcards Char := ⟨'%', '_', by decide⟩

/-- The escape letter of an escape string. An empty string turns escaping off. -/
def escapeLetter : List Char → Except SqlError (Option Char)
  | [] => .ok none
  | [letter] => .ok (some letter)
  | _ => .error .escapeString

/-- `operand LIKE pattern ESCAPE escape` -/
def evaluateLike (operand pattern escape : List Char) : Except SqlError SqlValue := do
  let letter ← escapeLetter escape
  match Patterns.read likeWildcards letter pattern with
  | some elements => .ok (.boolean (Patterns.admits elements operand))
  | none => .error .pattern

namespace TextExpression

variable {Origin : Type} (column : List String → Option SqlValue)
  (parameter : Origin → Option SqlValue)

def found (value : Option SqlValue) : Except SqlError SqlValue :=
  match value with
  | some value => .ok value
  | none => .error .undefined

def evaluate : TextExpression Origin → Except SqlError SqlValue
  | .column path => found (column path)
  | .parameter origin => found (parameter origin)
  | .text characters => .ok (.text characters)
  | .cast operand type =>
      if type = ['t', 'e', 'x', 't'] then do
        let characters ← (← operand.evaluate).characters
        .ok (.text characters)
      else .error .undefined
  | .replace operand search replacement => do
      let characters ← (← operand.evaluate).characters
      let search ← (← search.evaluate).characters
      let replacement ← (← replacement.evaluate).characters
      .ok (.text (Patterns.replace search replacement characters))
  | .concat left right => do
      let first ← (← left.evaluate).characters
      let second ← (← right.evaluate).characters
      .ok (.text (first ++ second))
  | .like operand pattern escape => do
      let characters ← (← operand.evaluate).characters
      let pattern ← (← pattern.evaluate).characters
      let escape ← (← escape.evaluate).characters
      evaluateLike characters pattern escape

end TextExpression

/-! ## The text of the filter -/

section Filter

variable {Origin : Type} [DecidableEq Origin]

/-- The expression of a prefix filter over a field, with the texts it is
written with. -/
def prefixExpression (path : List String) (origin : Origin)
    (escape doubled percent underscore : List Char) : TextExpression Origin :=
  .like (.column path)
    (.concat
      (.replace
        (.replace (.replace (.cast (.parameter origin) ['t', 'e', 'x', 't']) (.text escape)
            (.text doubled))
          (.text ['%']) (.text percent))
        (.text ['_']) (.text underscore))
      (.text ['%']))
    (.text escape)

omit [DecidableEq Origin] in
/-- A text is read as its characters are. -/
theorem tokens_ofList {sql : String} {characters : List Char} {tokens : Tokens Origin}
    (same : sql = String.ofList characters) (read : readText .between characters = some tokens) :
    (Piece.text sql).tokens = some tokens := by
  subst same
  rw [Piece.tokens, String.toList_ofList, read]

omit [DecidableEq Origin] in
theorem tokens_opening : (Piece.text "(" : Piece Origin).tokens = some [.opening] :=
  tokens_ofList rfl rfl

omit [DecidableEq Origin] in
theorem tokens_like :
    (Piece.text " LIKE (replace(replace(replace((" : Piece Origin).tokens =
      some [.word ['L', 'I', 'K', 'E'], .opening, .word "replace".toList, .opening,
        .word "replace".toList, .opening, .word "replace".toList, .opening, .opening] :=
  tokens_ofList rfl rfl

omit [DecidableEq Origin] in
theorem tokens_escape :
    (Piece.text
      " )::text, '\\\\', '\\\\\\\\'), '%', '\\%'), '_', '\\_') || '%') ESCAPE '\\\\')" :
        Piece Origin).tokens =
      some [.closing, .cast, .word "text".toList, .comma, .text ['\\', '\\'], .comma,
        .text ['\\', '\\', '\\', '\\'], .closing, .comma, .text ['%'], .comma,
        .text ['\\', '%'], .closing, .comma, .text ['_'], .comma, .text ['\\', '_'], .closing,
        .concat, .text ['%'], .closing, .word "ESCAPE".toList, .text ['\\', '\\'], .closing] :=
  tokens_ofList rfl rfl

omit [DecidableEq Origin] in
theorem tokens_name (identifier : String) :
    (Piece.name identifier : Piece Origin).tokens = some [.name identifier] := rfl

omit [DecidableEq Origin] in
theorem tokens_slot (origin : Origin) : (Piece.slot origin).tokens = some [.slot origin] := rfl

/-- The command of a prefix filter over a field. -/
theorem prefixCommand_parse (tableAlias column : String) (origin : Origin) :
    Sql.parse ([Piece.text "("] ++ ident [tableAlias, column] ++
        [Piece.text " LIKE (replace(replace(replace(("] ++ [Piece.slot origin] ++
        [.text
          " )::text, '\\\\', '\\\\\\\\'), '%', '\\%'), '_', '\\_') || '%') ESCAPE '\\\\')"]) =
      some (prefixExpression [tableAlias, column] origin ['\\', '\\']
        ['\\', '\\', '\\', '\\'] ['\\', '%'] ['\\', '_']) := by
  have path : (Piece.text "." : Piece Origin).tokens = some [.period] := tokens_ofList rfl rfl
  simp only [Sql.parse, Sql.tokens, ident, List.map_cons, List.map_nil,
    List.intersperse_cons_cons, List.intersperse_singleton, List.cons_append, List.nil_append,
    List.mapM_cons, List.mapM_nil, tokens_opening, tokens_like, tokens_escape, path,
    tokens_name, tokens_slot]
  rfl

end Filter

/-! ## The value of the filter -/

section Values

variable {Origin : Type} {column : List String → Option SqlValue}
  {parameter : Origin → Option SqlValue} {path : List String} {origin : Origin}
  {stored given : List Char}

/-- A text that is escaped with one letter is compared as it is. -/
theorem prefixExpression_single {escape : Char} (percent : '%' ≠ escape)
    (underscore : '_' ≠ escape) (columnOk : column path = some (.text stored))
    (parameterOk : parameter origin = some (.text given)) :
    (prefixExpression path origin [escape] [escape, escape] [escape, '%'] [escape, '_']).evaluate
        column parameter = .ok (.boolean (decide (given <+: stored))) := by
  have written := Patterns.replace_escaped likeWildcards percent underscore given
  have read : Patterns.read likeWildcards (some escape)
      (Patterns.replace ['_'] [escape, '_'] (Patterns.replace ['%'] [escape, '%']
        (Patterns.replace [escape] [escape, escape] given)) ++ ['%']) =
      some (given.map .exactly ++ [.any]) :=
    (congrArg (fun letters => Patterns.read likeWildcards (some escape) (letters ++ ['%']))
      written).trans (Patterns.read_escaped likeWildcards percent given)
  have same : Patterns.admits (given.map .exactly ++ [.any]) stored =
      decide (given <+: stored) := by
    rw [Bool.eq_iff_iff, Patterns.admits_begins, decide_eq_true_iff]
  simp only [prefixExpression, TextExpression.evaluate, TextExpression.found, columnOk,
    parameterOk, bind, Except.bind, SqlValue.characters, if_pos, evaluateLike, escapeLetter,
    read, same]

/-- An escape string of more letters is refused, whatever is compared. -/
theorem prefixExpression_refused {first second : Char}
    {rest doubled percent underscore : List Char}
    (columnOk : column path = some (.text stored))
    (parameterOk : parameter origin = some (.text given)) :
    (prefixExpression path origin (first :: second :: rest) doubled percent underscore).evaluate
        column parameter = .error .escapeString := by
  simp only [prefixExpression, TextExpression.evaluate, TextExpression.found, columnOk,
    parameterOk, bind, Except.bind, SqlValue.characters, if_pos, evaluateLike, escapeLetter]

end Values

/-! ## Compiled filters -/

def sqlText : Json → Option SqlValue
  | .string text => some (.text text.toList)
  | _ => none

def QueryStatement.parameter (statement : QueryStatement) (origin : Origin) : Option SqlValue :=
  (statement.parameters.find? fun parameter => parameter.origin = origin).bind fun parameter =>
    sqlText parameter.value

/-- The value of a filter where one column holds a text. -/
def QueryStatement.evaluate (statement : QueryStatement) (path : List String)
    (stored : List Char) : Option (Except SqlError SqlValue) :=
  statement.command.parse.map fun expression =>
    expression.evaluate (fun other => if other = path then some (.text stored) else none)
      (QueryStatement.parameter statement)

section Compiled

variable {targets : Targets} {site : Site} {path : List Nat} {resource : Option String}
  {name tableAlias given : String} {field : FieldLayout} {statement : QueryStatement}

theorem prefix_refused (found : targets.field resource name = .ok (tableAlias, field))
    (compiled : compile targets site path
      (.hasPrefix (.field resource name) (.literal (.string given))) = .ok statement)
    (stored : List Char) :
    statement.evaluate [tableAlias, field.column.text] stored = some (.error .escapeString) := by
  unfold compile at compiled
  obtain ⟨left, leftOk, compiled⟩ := bind_eq_ok compiled
  obtain ⟨right, rightOk, compiled⟩ := bind_eq_ok compiled
  unfold compile at leftOk rightOk
  rw [found] at leftOk
  cases leftOk
  cases rightOk
  cases compiled
  have parsed := prefixCommand_parse tableAlias field.column.text
    (Origin.expression site (path ++ [1]) .literal)
  have bound : QueryStatement.parameter
      (prefixStatement ⟨ident [tableAlias, field.column.text], []⟩
        (literalStatement site (path ++ [1]) (.string given)))
      (.expression site (path ++ [1]) .literal) = some (.text given.toList) := by
    simp [QueryStatement.parameter, prefixStatement, literalStatement, Query.bound,
      sqlText]
  rw [QueryStatement.evaluate]
  exact (congrArg (Option.map _) parsed).trans
    (congrArg some (prefixExpression_refused (if_pos rfl) bound))

/-- No prefix filter tells the texts that begin with its literal from the others. -/
theorem prefix_never (found : targets.field resource name = .ok (tableAlias, field))
    (compiled : compile targets site path
      (.hasPrefix (.field resource name) (.literal (.string given))) = .ok statement)
    (stored : List Char) :
    statement.evaluate [tableAlias, field.column.text] stored ≠
      some (.ok (.boolean (decide (given.toList <+: stored)))) := by
  rw [prefix_refused found compiled stored]
  nofun

end Compiled

/-! ## States of the work queue -/

def workTargets : Targets :=
  ⟨[("structured:example.work", "t0")], [("structured:example.work", workLayout)]⟩

def statePrefix (given : String) : Expression :=
  .hasPrefix (.field none "state") (.literal (.string given))

theorem statePrefix_never : ∃ statement,
    compile workTargets .filter [] (statePrefix "wait") = .ok statement ∧
      statement.evaluate ["t0", "state"] "waiting".toList ≠
        some (.ok (.boolean (decide ("wait".toList <+: "waiting".toList)))) := by
  refine ⟨_, rfl, ?_⟩
  have found : workTargets.field none "state" =
      .ok ("t0", PostgreSQLQueryTranslator.stateField) := rfl
  exact prefix_never found rfl _

/-- Whether a state that begins with the literal does so is an error. -/
theorem statePrefix_refused : ∃ statement,
    compile workTargets .filter [] (statePrefix "wait") = .ok statement ∧
      "wait".toList <+: "waiting".toList ∧
      statement.evaluate ["t0", "state"] "waiting".toList = some (.error .escapeString) := by
  refine ⟨_, rfl, by decide, ?_⟩
  have found : workTargets.field none "state" =
      .ok ("t0", PostgreSQLQueryTranslator.stateField) := rfl
  exact prefix_refused found rfl _

end MeridianPostgreSQL.Query
