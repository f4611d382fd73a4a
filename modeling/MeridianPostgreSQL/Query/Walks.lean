import MeridianPostgreSQL.Foundation.SimplePaths
import MeridianPostgreSQL.Foundation.Unknowns
import MeridianPostgreSQL.Query.Endpoints

/-! # Walks

The rows of the recursive query of a traversal: the edges that its scans find,
and the walks along them. Each walk is the row of a simple path. -/

namespace MeridianPostgreSQL.Query

open Settings Unknowns RecursiveQueries SimplePaths

/-! ## Edges -/

/-- A row of a relation table: the ends of the edge, and its scope columns. -/
structure StoredEdge where
  source : Option Json
  target : Option Json
  scope : String → String

/-- The scan of one relation collection in one orientation. -/
structure EdgeScan where
  position : Nat
  ref : String
  layout : ResourceLayout
  reversed : Bool
  condition : QueryStatement

/-- A row of `edges`. -/
structure EdgeRow where
  relationRef : String
  sourceCollection : Option String
  sourceId : Option String
  targetCollection : Option String
  targetId : Option String

/-- A database, by the rows of its relation tables and those that a condition
on `r` selects, with the values of the scope columns of the request. -/
structure EdgeServer where
  rows : Identifier → List StoredEdge
  scope : String → String
  selects : QueryStatement → StoredEdge → Bool
  inScope : ∀ (translator : PostgreSQLQueryTranslator) stored,
    selects (translator.scopePredicate "r") stored =
      translator.settings.scopeColumns.all fun column => stored.scope column = scope column
  conjoined : ∀ (translator : PostgreSQLQueryTranslator) {targets site predicate compiled} stored,
    compile targets site [] predicate = .ok compiled →
      selects (conjunction [translator.scopePredicate "r", compiled]) stored =
        (selects (translator.scopePredicate "r") stored && selects compiled stored)

namespace EdgeScan

/-- The end of an edge that a step in the orientation of the scan leaves. -/
def leaves (scan : EdgeScan) (stored : StoredEdge) : Option Json :=
  if scan.reversed then stored.target else stored.source

/-- The end of an edge that a step in the orientation of the scan enters. -/
def enters (scan : EdgeScan) (stored : StoredEdge) : Option Json :=
  if scan.reversed then stored.source else stored.target

def statement (translator : PostgreSQLQueryTranslator) (scan : EdgeScan) : QueryStatement :=
  translator.edgePart (if scan.reversed then PostgreSQLQueryTranslator.reverseColumns
    else PostgreSQLQueryTranslator.forwardColumns) scan.position scan.ref scan.layout scan.condition

variable (spell : Rat → List Char) (server : EdgeServer)

def row (scan : EdgeScan) (stored : StoredEdge) : EdgeRow where
  relationRef := scan.ref
  sourceCollection := (scan.leaves stored).bind (collectionText spell)
  sourceId := (scan.leaves stored).bind (recordIdText spell)
  targetCollection := (scan.enters stored).bind (collectionText spell)
  targetId := (scan.enters stored).bind (recordIdText spell)

/-- The rows that the scan contributes to `edges`. -/
def rows (scan : EdgeScan) : List EdgeRow :=
  ((server.rows scan.layout.table).filter (server.selects scan.condition)).map (scan.row spell)

end EdgeScan

/-! ## Rows of a walk -/

/-- `collection || E'\x1f' || record_id` -/
def encodedNode (collection recordId : Option String) : Option String :=
  collection.bind fun collection => recordId.map fun recordId =>
    collection ++ "\x1f" ++ recordId

/-- A row of `walk`. -/
structure WalkRow where
  depth : Nat
  collectionRef : Option String
  recordId : Option String
  path : List (Option String)
  relationPath : List String

namespace WalkRow

def start (collection recordId : String) : WalkRow where
  depth := 0
  collectionRef := some collection
  recordId := some recordId
  path := [encodedNode (some collection) (some recordId)]
  relationPath := []

/-- The condition that joins an edge to a walk. -/
def meets (row : WalkRow) (edge : EdgeRow) : Condition :=
  (equals edge.sourceCollection row.collectionRef).both (equals edge.sourceId row.recordId)

/-- The condition on a walk and the edge that is joined to it. -/
def continues (maxDepth : Nat) (row : WalkRow) (edge : EdgeRow) : Condition :=
  Condition.both (some (row.depth < maxDepth))
    (among (encodedNode edge.targetCollection edge.targetId) row.path).negated

def follow (row : WalkRow) (edge : EdgeRow) : WalkRow where
  depth := row.depth + 1
  collectionRef := edge.targetCollection
  recordId := edge.targetId
  path := row.path ++ [encodedNode edge.targetCollection edge.targetId]
  relationPath := row.relationPath ++ [edge.relationRef]

/-- The rows that the recursive term makes of one row. -/
def next (maxDepth : Nat) (edges : List EdgeRow) (row : WalkRow) : Multiset WalkRow :=
  ((edges.filter fun edge =>
    row.meets edge = some true ∧ row.continues maxDepth edge = some true).map row.follow :
      List WalkRow)

end WalkRow

/-- The rows of `walk`. -/
def Walked (spell : Rat → List Char) (server : EdgeServer) (scans : List EdgeScan)
    (traversal : Traversal) (rows : Multiset WalkRow) : Prop :=
  Evaluates (WalkRow.next traversal.maxDepth (scans.flatMap (EdgeScan.rows spell server)))
    {WalkRow.start traversal.startCollection (dumps spell traversal.startId)} rows

/-- The rows that are selected from `walk`, before their number is limited. -/
def returnedRows (traversal : Traversal) (rows : Multiset WalkRow) : Multiset WalkRow :=
  rows.filter fun row => traversal.minDepth ≤ row.depth ∧ row.depth ≤ traversal.maxDepth

/-! ## Steps -/

@[ext] structure RecordNode where
  collection : String
  recordId : String
deriving DecidableEq

namespace RecordNode

def encoded (node : RecordNode) : String := node.collection ++ "\x1f" ++ node.recordId

/-- The identity does not hold the character that separates it. -/
def Separate (node : RecordNode) : Prop := '\x1f' ∉ node.recordId.toList

end RecordNode

/-- The record that an end refers to. -/
def endNode (spell : Rat → List Char) (endpoint : Option Json) : Option RecordNode := do
  let endpoint ← endpoint
  let collection ← collectionText spell endpoint
  let recordId ← recordIdText spell endpoint
  some ⟨collection, recordId⟩

/-- An edge, by the position of its relation collection and the index of its
row, followed in one orientation. -/
structure EdgeStep where
  position : Nat
  index : Nat
  reversed : Bool
  ref : String
  source : RecordNode
  target : RecordNode
deriving DecidableEq

/-- The row of a walk along a path. -/
def WalkRow.along (start : RecordNode) (path : List EdgeStep) : WalkRow where
  depth := path.length
  collectionRef := some (finish EdgeStep.target start path).collection
  recordId := some (finish EdgeStep.target start path).recordId
  path := (visited EdgeStep.target start path).map fun node => some node.encoded
  relationPath := path.map EdgeStep.ref

/-! ## Encoding of records -/

/-- Two texts that are cut at their last separators. -/
theorem cut_eq {left right first second : List Char} (here : '\x1f' ∉ first)
    (there : '\x1f' ∉ second) (same : left ++ '\x1f' :: first = right ++ '\x1f' :: second) :
    left = right ∧ first = second := by
  induction left generalizing right with
  | nil =>
      cases right with
      | nil => exact ⟨rfl, (List.cons.inj same).2⟩
      | cons character right =>
          have rest : first = right ++ '\x1f' :: second := (List.cons.inj same).2
          exact absurd (rest ▸ List.mem_append_right right List.mem_cons_self) here
  | cons character left induction =>
      cases right with
      | nil =>
          have rest : left ++ '\x1f' :: first = second := (List.cons.inj same).2
          exact absurd (rest ▸ List.mem_append_right left List.mem_cons_self) there
      | cons other right =>
          obtain ⟨head, rest⟩ := List.cons.inj same
          obtain ⟨before, after⟩ := induction rest
          exact ⟨head ▸ before ▸ rfl, after⟩

theorem RecordNode.encoded_inj {left right : RecordNode} (here : left.Separate)
    (there : right.Separate) : left.encoded = right.encoded ↔ left = right := by
  constructor
  · intro same
    have characters := congrArg String.toList same
    simp only [encoded, String.toList_append, List.append_assoc] at characters
    obtain ⟨collection, recordId⟩ := cut_eq here there characters
    cases left
    cases right
    cases String.toList_inj.mp collection
    cases String.toList_inj.mp recordId
    rfl
  · exact congrArg encoded

/-! ## Characters of stored values -/

theorem separator_hexDigit : ∀ {digit : Nat}, digit < 16 → '\x1f' ≠ hexDigit digit := by
  decide

theorem separator_escapeUnit {unit : Nat} (small : unit < 65536) :
    '\x1f' ∉ escapeUnit unit := by
  have first := separator_hexDigit (by omega : unit / 4096 < 16)
  have second := separator_hexDigit (by omega : unit / 256 % 16 < 16)
  have third := separator_hexDigit (by omega : unit / 16 % 16 < 16)
  have fourth := separator_hexDigit (by omega : unit % 16 < 16)
  simp [escapeUnit, first, second, third, fourth]

theorem separator_character (character : Char) : '\x1f' ∉ storedCharacter character := by
  unfold storedCharacter
  repeat' split
  all_goals try decide
  · exact separator_escapeUnit (by omega)
  · rename_i printed
    rw [List.mem_singleton]
    rintro rfl
    exact printed (by decide)

theorem separator_string (text : String) : '\x1f' ∉ storedString text := by
  intro member
  rcases List.mem_cons.mp member with quote | member
  · exact absurd quote (by decide)
  · rcases List.mem_append.mp member with inside | quote
    · obtain ⟨character, _, written⟩ := List.mem_flatMap.mp inside
      exact separator_character character written
    · exact absurd quote (by decide)

/-- The characters of a number are none of the separator. -/
theorem separator_digits {character : Char}
    (digit : character.isDigit = true ∨ character ∈ ['-', '+', '.', 'e']) :
    '\x1f' ≠ character := by
  rintro rfl
  exact absurd digit (by decide)

section Stored

variable {spell : Rat → List Char}

theorem separator_decimal (spells : SpellsNumbers spell) (value : Rat) :
    '\x1f' ∉ plainDecimal (spell value) := by
  intro member
  rcases mem_plainDecimal member with ⟨there, _⟩ | written
  · exact separator_digits (spells value _ there) rfl
  · exact absurd written (by decide)

theorem separator_append {first second : List Char} :
    '\x1f' ∉ first ++ second ↔ '\x1f' ∉ first ∧ '\x1f' ∉ second := by
  rw [List.mem_append, not_or]

theorem separator_cons {character : Char} (differs : '\x1f' ≠ character) {text : List Char} :
    '\x1f' ∉ character :: text ↔ '\x1f' ∉ text := by
  rw [List.mem_cons, not_or, and_iff_right differs]

mutual

theorem separator_printText (spells : SpellsNumbers spell) :
    ∀ value : Json, '\x1f' ∉ printText spell value
  | .null => (by decide : '\x1f' ∉ "null".toList)
  | .bool true => (by decide : '\x1f' ∉ "true".toList)
  | .bool false => (by decide : '\x1f' ∉ "false".toList)
  | .int _ => fun member => separator_digits (intText_digits member) rfl
  | .float value => separator_decimal spells value
  | .string text => separator_string text
  | .array items => by
      change '\x1f' ∉ '[' :: (printItems spell items ++ [']'])
      rw [separator_cons (by decide), separator_append]
      exact ⟨separator_printItems spells items, by decide⟩
  | .object members => by
      change '\x1f' ∉ '{' :: (printMembers spell members ++ ['}'])
      rw [separator_cons (by decide), separator_append]
      exact ⟨separator_printMembers spells members, by decide⟩

theorem separator_printItems (spells : SpellsNumbers spell) :
    ∀ items : List Json, '\x1f' ∉ printItems spell items
  | [] => List.not_mem_nil
  | [item] => separator_printText spells item
  | item :: next :: items => by
      change '\x1f' ∉ printText spell item ++ ',' :: ' ' :: printItems spell (next :: items)
      rw [separator_append, separator_cons (by decide), separator_cons (by decide)]
      exact ⟨separator_printText spells item, separator_printItems spells (next :: items)⟩

theorem separator_printMembers (spells : SpellsNumbers spell) :
    ∀ members : List (String × Json), '\x1f' ∉ printMembers spell members
  | [] => List.not_mem_nil
  | [(name, value)] => by
      change '\x1f' ∉ storedString name ++ ':' :: ' ' :: printText spell value
      rw [separator_append, separator_cons (by decide), separator_cons (by decide)]
      exact ⟨separator_string name, separator_printText spells value⟩
  | (name, value) :: next :: members => by
      change '\x1f' ∉ storedString name ++ (':' :: ' ' :: printText spell value) ++
        (',' :: ' ' :: printMembers spell (next :: members))
      simp only [separator_append, separator_cons (by decide : '\x1f' ≠ ':'),
        separator_cons (by decide : '\x1f' ≠ ' '), separator_cons (by decide : '\x1f' ≠ ',')]
      exact ⟨⟨separator_string name, separator_printText spells value⟩,
        separator_printMembers spells (next :: members)⟩

end

theorem separator_storedText (spells : SpellsNumbers spell) (value : Json) :
    '\x1f' ∉ (storedText spell value).toList := by
  rw [storedText, String.toList_ofList]
  exact separator_printText spells _

/-- The identity of the record that an end refers to is a stored text. -/
theorem endNode_separate (spells : SpellsNumbers spell) {endpoint : Option Json}
    {node : RecordNode} (refers : endNode spell endpoint = some node) : node.Separate := by
  simp only [endNode, bind, Option.bind_eq_some_iff] at refers
  obtain ⟨value, _, collection, _, recordId, identity, same⟩ := refers
  obtain ⟨stored, _, rfl⟩ := Option.map_eq_some_iff.mp identity
  cases same
  exact separator_storedText spells stored

end Stored

end MeridianPostgreSQL.Query
