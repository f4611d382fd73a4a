import MeridianPostgreSQL.Settings.CheckedLayouts
import MeridianPostgreSQL.Query.Dml
import MeridianPostgreSQL.Query.ValueIndependence

/-! # Filters of mutations

How the filter parser of the storage library reads the forms it documents, and
the text that a condition made of them has. The spelling of its operators and
the order in which it compares the fields are parameters. -/

namespace MeridianPostgreSQL.Query

open Settings

/-! ## Readings -/

/-- How a parser spells its operators, and the order of its comparisons. -/
structure FilterReader where
  kind : String → Option BinaryKind
  arrange : List (String × BinaryKind) → List (String × BinaryKind)

structure Comparison where
  field : String
  kind : BinaryKind
  value : Json
deriving DecidableEq

def Comparison.expression (comparison : Comparison) : Expression :=
  .binary comparison.kind (.field none comparison.field) (.literal comparison.value)

/-- What is compared and how, without the value. -/
def Comparison.compared (comparison : Comparison) : String × BinaryKind :=
  (comparison.field, comparison.kind)

def isScalar : Json → Bool
  | .array _ => false
  | .object _ => false
  | _ => true

namespace FilterReader

variable (reader : FilterReader)

/-- A scalar is to be equal; an object names operators. -/
def fieldComparisons (name : String) : Json → List Comparison
  | .object operators => operators.filterMap fun operator =>
      (reader.kind operator.1).map fun kind => ⟨name, kind, operator.2⟩
  | value => [⟨name, .eq, value⟩]

def comparisons (filter : Json.Object) : List Comparison :=
  filter.flatMap fun entry => reader.fieldComparisons entry.1 entry.2

/-- A scalar, or an object of operators. -/
def isDocumented : Json → Bool
  | .object operators => !operators.isEmpty &&
      operators.all fun operator => (reader.kind operator.1).isSome
  | .array _ => false
  | .null => false
  | _ => true

/-- What a filter compares and how, in the order of its condition. -/
def operators (filter : Json.Object) : List (String × BinaryKind) :=
  reader.arrange ((reader.comparisons filter).map Comparison.compared)

/-- Documented values under the names of fields. -/
structure Documented (layout : ResourceLayout) (filter : Json.Object) : Prop where
  present : filter ≠ []
  fields : ∀ entry ∈ filter, (layout.field entry.1).isSome = true
  values : ∀ entry ∈ filter, reader.isDocumented entry.2 = true

end FilterReader

/-- An expression that joins comparisons, in the order listed. -/
inductive Conjoins : Expression → List Comparison → Prop
  | one (comparison : Comparison) : Conjoins comparison.expression [comparison]
  | all {parts : List (Expression × List Comparison)} (present : parts ≠ [])
      (each : ∀ part ∈ parts, Conjoins part.1 part.2) :
      Conjoins (.boolean .and (parts.map Prod.fst)) (parts.flatMap Prod.snd)

/-- The parser joins the comparisons that a filter in documented form names.
What it compares, and not with what, settles the shape of the expression.
Nothing is known of how it reads other filters. -/
structure ReadsFilters (reader : FilterReader) (layout : ResourceLayout)
    (parseFilter : Json.Object → Compiled (Option Expression)) : Prop where
  reads : ∀ {filter}, reader.Documented layout filter → ∃ expression listed,
    parseFilter filter = .ok (some expression) ∧ Conjoins expression listed ∧
      listed.Perm (reader.comparisons filter) ∧
      listed.map Comparison.compared = reader.operators filter
  shapes : ∀ {filter other expression otherExpression}, reader.Documented layout filter →
    reader.Documented layout other → reader.operators filter = reader.operators other →
    parseFilter filter = .ok (some expression) →
    parseFilter other = .ok (some otherExpression) → SameShape expression otherExpression

/-- One comparison stands alone and several are joined. -/
def conjoined : List Comparison → Expression
  | [comparison] => comparison.expression
  | several => .boolean .and (several.map Comparison.expression)

/-- An entry of a filter that is to be equal. -/
def equalTo (entry : String × Json) : Comparison := ⟨entry.1, .eq, entry.2⟩

/-- The parser reads scalars under the names of fields as equality. Nothing is
assumed of the order of the fields. -/
def ReadsScalars (layout : ResourceLayout)
    (parseFilter : Json.Object → Compiled (Option Expression)) : Prop :=
  ∀ filter : Json.Object, filter ≠ [] →
    (∀ entry ∈ filter, (layout.field entry.1).isSome = true ∧ isScalar entry.2 = true ∧
      entry.2 ≠ .null) →
    ∃ arranged : Json.Object, arranged.Perm filter ∧
      parseFilter filter = .ok (some (conjoined (arranged.map equalTo)))

/-! ## A parser -/

/-- Operators are spelled with a dollar sign, and fields are compared as given. -/
def dollarReader : FilterReader where
  kind := fun operator =>
    if operator = "$eq" then some .eq
    else if operator = "$ne" then some .ne
    else if operator = "$lt" then some .lt
    else if operator = "$lte" then some .lte
    else if operator = "$gt" then some .gt
    else if operator = "$gte" then some .gte
    else none
  arrange := fun compared => compared

/-- An empty filter holds of every record. -/
def dollarFilter : Json.Object → Expression
  | [] => .literal (.bool true)
  | filter => conjoined (dollarReader.comparisons filter)

/-- The compiler of the test Binding. -/
def workCompiler : DMLCompiler where
  settings := workSettings
  parseFilter := fun filter => .ok (some (dollarFilter filter))
  collectionRef := fun _ => .error (.type "a record reference is required")

theorem conjoined_conjoins {listed : List Comparison} (present : listed ≠ []) :
    Conjoins (conjoined listed) listed := by
  unfold conjoined
  split
  · exact .one _
  · have parts := @Conjoins.all (listed.map fun comparison => (comparison.expression, [comparison]))
      (by simpa using present) (by
        intro part inside
        obtain ⟨comparison, _, rfl⟩ := List.mem_map.mp inside
        exact .one comparison)
    simpa [Function.comp_def, List.flatMap_map] using parts

theorem conjoined_shape {listed other : List Comparison}
    (same : listed.map Comparison.compared = other.map Comparison.compared) :
    SameShape (conjoined listed) (conjoined other) := by
  have length : listed.length = other.length := by simpa using congrArg List.length same
  have each : ∀ {comparison other : Comparison}, comparison.compared = other.compared →
      SameShape comparison.expression other.expression := by
    rintro ⟨field, kind, value⟩ ⟨otherField, otherKind, otherValue⟩ equal
    cases equal
    exact .binary .field .literal
  unfold conjoined
  split
  · obtain ⟨single, rfl⟩ := List.length_eq_one_iff.mp length.symm
    exact each (List.cons.inj same).1
  · rename_i several
    split
    · obtain ⟨single, rfl⟩ := List.length_eq_one_iff.mp length
      exact absurd rfl (several single)
    · refine .boolean (by simpa using length) ?_
      intro index operand otherOperand found otherFound
      rw [List.getElem?_map, Option.map_eq_some_iff] at found otherFound
      obtain ⟨comparison, found, rfl⟩ := found
      obtain ⟨otherComparison, otherFound, rfl⟩ := otherFound
      apply each
      have equal := congrArg (fun compared => compared[index]?) same
      simpa [found, otherFound] using equal

/-- A documented value is read as some comparison. -/
theorem fieldComparisons_exist {reader : FilterReader} {name : String} {value : Json}
    (documented : reader.isDocumented value = true) :
    ∃ comparison, comparison ∈ reader.fieldComparisons name value := by
  unfold FilterReader.fieldComparisons
  split
  · rename_i operators
    cases operators with
    | nil => simp [FilterReader.isDocumented] at documented
    | cons operator rest =>
        simp only [FilterReader.isDocumented, List.all_cons, Bool.and_eq_true] at documented
        obtain ⟨kind, known⟩ := Option.isSome_iff_exists.mp documented.2.1
        exact ⟨⟨name, kind, operator.2⟩, List.mem_filterMap.mpr
          ⟨operator, List.mem_cons_self, by rw [known]; rfl⟩⟩
  · exact ⟨_, List.mem_singleton_self _⟩

theorem FilterReader.Documented.comparisons_ne_nil {reader : FilterReader}
    {layout : ResourceLayout} {filter : Json.Object}
    (documented : reader.Documented layout filter) : reader.comparisons filter ≠ [] := by
  obtain ⟨entry, listed⟩ := List.exists_mem_of_ne_nil filter documented.present
  obtain ⟨comparison, member⟩ :=
    @fieldComparisons_exist reader entry.1 entry.2 (documented.values entry listed)
  exact List.ne_nil_of_mem (List.mem_flatMap.mpr ⟨entry, listed, member⟩)

theorem comparisons_scalar {reader : FilterReader} {filter : Json.Object}
    (scalar : ∀ entry ∈ filter, isScalar entry.2 = true) :
    reader.comparisons filter = filter.map equalTo := by
  have single : ∀ entry ∈ filter,
      reader.fieldComparisons entry.1 entry.2 = [equalTo entry] := by
    rintro ⟨name, value⟩ listed
    have plain := scalar _ listed
    cases value with
    | object operators => exact nomatch plain
    | _ => rfl
  rw [FilterReader.comparisons, List.map_eq_flatMap, List.flatMap_congr single]

theorem dollarFilter_some {filter : Json.Object} (present : filter ≠ []) :
    dollarFilter filter = conjoined (dollarReader.comparisons filter) := by
  cases filter with
  | nil => exact absurd rfl present
  | cons entry rest => rfl

theorem dollarFilter_reads (layout : ResourceLayout) : ReadsFilters dollarReader layout
    fun filter => .ok (some (dollarFilter filter)) where
  reads := by
    intro filter documented
    rw [dollarFilter_some documented.present]
    exact ⟨_, _, rfl, conjoined_conjoins documented.comparisons_ne_nil, .refl _, rfl⟩
  shapes := by
    intro filter other expression otherExpression documented otherDocumented same parsed
      otherParsed
    rw [dollarFilter_some documented.present] at parsed
    rw [dollarFilter_some otherDocumented.present] at otherParsed
    cases parsed
    cases otherParsed
    exact conjoined_shape same

theorem dollarFilter_scalars (layout : ResourceLayout) : ReadsScalars layout
    fun filter => .ok (some (dollarFilter filter)) := by
  intro filter present scalar
  refine ⟨filter, .refl _, ?_⟩
  dsimp only
  rw [dollarFilter_some present, comparisons_scalar fun entry listed => (scalar entry listed).2.1]

/-- An update of one item of work, whose identity is given. -/
def workUpdate (identity : Json) : Json.Object :=
  [("mode", .string "update"),
    ("data", .object [("id", identity), ("state", .string "ready"), ("priority", .int 1)])]

def workOperation : OperationContext := ⟨some "tenant", [("workspace", "main")]⟩

/-! ## Identities -/

/-- The identity of a record is given in documented form. -/
def FilterReader.DocumentedIdentity (reader : FilterReader) (layout : ResourceLayout)
    (data : Json.Object) : Prop :=
  ∀ entry ∈ DMLCompiler.identityValues layout data, reader.isDocumented entry.2 = true

instance (reader : FilterReader) (layout : ResourceLayout) (data : Json.Object) :
    Decidable (reader.DocumentedIdentity layout data) :=
  inferInstanceAs (Decidable (∀ entry ∈ DMLCompiler.identityValues layout data,
    reader.isDocumented entry.2 = true))

theorem mem_identityValues {layout : ResourceLayout} {data : Json.Object}
    {entry : String × Json} : entry ∈ DMLCompiler.identityValues layout data ↔
      entry.1 ∈ layout.identity ∧ Json.get data entry.1 = some entry.2 := by
  simp only [DMLCompiler.identityValues, List.mem_filterMap, Option.map_eq_some_iff]
  constructor
  · rintro ⟨name, listed, value, found, rfl⟩
    exact ⟨listed, found⟩
  · rintro ⟨listed, found⟩
    exact ⟨entry.1, listed, entry.2, found, rfl⟩

theorem identity_declared {layout : ResourceLayout} (valid : layout.check = .ok ())
    {name : String} (listed : name ∈ layout.identity) : (layout.field name).isSome = true := by
  have declared : layout.identity ⊆ layout.fieldNames := by
    unfold ResourceLayout.check at valid
    split at valid
    · split at valid
      · exact nomatch valid
      · rename_i fixed
        simp only [not_or, not_not] at fixed
        rw [fixed.2.2.2.1]
        exact List.nil_subset _
    · rename_i data
      obtain ⟨registry, _⟩ | ⟨_, sound⟩ := @checked_of_check layout (by
        unfold ResourceLayout.check
        rw [if_neg data]
        exact valid)
      · exact absurd registry data
      · exact sound.identity.2.2
  obtain ⟨field, inside, named⟩ := List.mem_map.mp (declared listed)
  exact List.find?_isSome.mpr ⟨field, inside, decide_eq_true named⟩

theorem FilterReader.DocumentedIdentity.documented {reader : FilterReader}
    {layout : ResourceLayout} {data : Json.Object} (valid : layout.check = .ok ())
    (documented : reader.DocumentedIdentity layout data)
    (present : DMLCompiler.identityValues layout data ≠ []) :
    reader.Documented layout (DMLCompiler.identityValues layout data) where
  present := present
  fields := fun _ listed => identity_declared valid (mem_identityValues.mp listed).1
  values := documented

/-! ## Text -/

section Text

variable {Origin Value : Type}

@[simp] theorem render_nil : Sql.render ([] : Sql Origin) = [] := rfl

@[simp] theorem render_cons (piece : Piece Origin) (rest : Sql Origin) :
    Sql.render (piece :: rest) = piece.render ++ Sql.render rest := rfl

@[simp] theorem render_append (left right : Sql Origin) :
    Sql.render (left ++ right) = left.render ++ right.render := List.flatMap_append

theorem render_joined (separator : String) (first : Sql Origin) (rest : List (Sql Origin)) :
    (joined separator (first :: rest)).render =
      first.render ++ rest.flatMap fun part => separator.toList ++ part.render := by
  unfold joined
  induction rest generalizing first with
  | nil => simp
  | cons second rest induction =>
      rw [List.intersperse_cons_cons, List.flatten_cons, List.flatten_cons, render_append,
        render_append, induction, List.flatMap_cons]
      simp [Piece.render]

/-- A text without its brackets. -/
def bare (text : List Char) : List Char :=
  text.filter fun character => decide (character ≠ '(' ∧ character ≠ ')')

@[simp] theorem bare_append (left right : List Char) :
    bare (left ++ right) = bare left ++ bare right := List.filter_append left right

def andText : List Char := [' ', 'A', 'N', 'D', ' ']

/-- The parts of a conjunction, each after the word that joins it. -/
theorem bare_conjunction (first : BoundStatement Origin Value)
    (rest : List (BoundStatement Origin Value)) :
    andText ++ bare (conjunction (first :: rest)).command.render =
      (first :: rest).flatMap fun part => andText ++ bare part.command.render := by
  have separator : ") AND (".toList = ')' :: (andText ++ ['(']) := String.toList_ofList
  have each : ∀ text : List Char, bare (')' :: (andText ++ ['(']) ++ text) =
      andText ++ bare text := fun text => bare_append _ text
  have flat : ∀ parts : List (BoundStatement Origin Value),
      bare (parts.flatMap fun part => ')' :: (andText ++ ['(']) ++ part.command.render) =
        parts.flatMap fun part => andText ++ bare part.command.render := by
    intro parts
    induction parts with
    | nil => rfl
    | cons part parts induction =>
        rw [List.flatMap_cons, List.flatMap_cons, bare_append, each, induction]
  have edges : bare (Sql.render ([.text "("] : Sql Origin)) = [] ∧
      bare (Sql.render ([.text ")"] : Sql Origin)) = [] := ⟨rfl, rfl⟩
  simp only [conjunction, List.map_cons, render_append, render_joined, List.flatMap_map,
    separator, bare_append, edges, flat, List.nil_append, List.append_nil, List.flatMap_cons,
    List.append_assoc]

end Text

/-- A comparison of the rows of an alias as it is written. -/
def comparisonText (tableAlias : String) (compared : String × BinaryKind) : List Char :=
  andText ++ bare (quoted tableAlias ++ '.' :: (quoted compared.1 ++
    (compared.2.operator.toList ++ ['%', 's'])))

/-- The column of a field that has been found. -/
def columnOf (layout : ResourceLayout) (name : String) : String :=
  ((layout.field name).map fun field => field.column.text).getD ""

def comparedColumn (layout : ResourceLayout) (compared : String × BinaryKind) :
    String × BinaryKind := (columnOf layout compared.1, compared.2)

/-- The one Resource of a mutation. -/
def conditionTargets (layout : ResourceLayout) (tableAlias : String) : Targets :=
  ⟨[(layout.ref.canonical, tableAlias)], [(layout.ref.canonical, layout)]⟩

section Conditions

variable {layout : ResourceLayout} {tableAlias : String}

theorem conditionTargets_field {name : String} {found : String × FieldLayout}
    (named : (conditionTargets layout tableAlias).field none name = .ok found) :
    found.1 = tableAlias ∧ layout.field name = some found.2 := by
  have lookedUp : ∀ {α : Type} (value : α),
      lookupKey [(layout.ref.canonical, value)] layout.ref.canonical = .ok value := by
    intro α value
    simp [lookupKey]
  unfold Targets.field at named
  simp only [Targets.resource, conditionTargets] at named
  rcases bind_eq_ok named with ⟨canonical, canonicalOk, named⟩
  cases canonicalOk
  rcases bind_eq_ok named with ⟨inside, insideOk, named⟩
  cases (lookedUp layout).symm.trans insideOk
  split at named
  · exact nomatch named
  · rename_i field present
    rcases bind_eq_ok named with ⟨other, otherOk, named⟩
    cases (lookedUp tableAlias).symm.trans otherOk
    cases named
    exact ⟨rfl, present⟩

theorem comparison_text {site : Site} {path : List Nat} {comparison : Comparison}
    {statement : QueryStatement}
    (compiles : Compiles (conditionTargets layout tableAlias) site path comparison.expression
      statement) :
    (layout.field comparison.field).isSome = true ∧
      andText ++ bare statement.command.render =
        comparisonText tableAlias (comparedColumn layout comparison.compared) := by
  cases compiles with
  | binary left_compiles right_compiles left_adapts right_adapts =>
      cases left_compiles with
      | field named =>
          cases right_compiles
          rcases conditionTargets_field named with ⟨sameAlias, present⟩
          constructor
          · rw [present, Option.isSome_some]
          · simp only [binaryStatement]
            rw [left_adapts.command, right_adapts.command]
            simp [literalStatement, slot, ident, Piece.render, comparisonText, columnOf,
              comparedColumn, Comparison.compared, present, sameAlias, bare]

/-- The text of a condition tells its comparisons, each with its column. -/
theorem Conjoins.text {expression : Expression} {listed : List Comparison}
    (joined : Conjoins expression listed) {site : Site} {path : List Nat}
    {statement : QueryStatement}
    (compiles : Compiles (conditionTargets layout tableAlias) site path expression statement) :
    (∀ comparison ∈ listed, (layout.field comparison.field).isSome = true) ∧
      andText ++ bare statement.command.render = listed.flatMap fun comparison =>
        comparisonText tableAlias (comparedColumn layout comparison.compared) := by
  induction joined generalizing path statement with
  | one comparison =>
      obtain ⟨present, text⟩ := comparison_text compiles
      exact ⟨by simpa using present, by simpa using text⟩
  | @all parts some each induction =>
      cases compiles with
      | @boolean _ _ _ statements length compiled =>
          rw [List.length_map] at length
          have found : ∀ {index : Nat} (inside : index < parts.length)
              (within : index < statements.length),
              (∀ comparison ∈ parts[index].2, (layout.field comparison.field).isSome = true) ∧
                andText ++ bare statements[index].command.render =
                  parts[index].2.flatMap fun comparison =>
                    comparisonText tableAlias (comparedColumn layout comparison.compared) := by
            intro index inside within
            apply induction _ (List.getElem_mem inside)
            apply compiled _ (List.getElem?_eq_getElem within)
            rw [List.getElem?_map, List.getElem?_eq_getElem inside]
            rfl
          have texts : (statements.map fun part => andText ++ bare part.command.render) =
              parts.map fun part => part.2.flatMap fun comparison =>
                comparisonText tableAlias (comparedColumn layout comparison.compared) := by
            apply List.ext_getElem
            · simpa using length.symm
            · intro index first second
              rw [List.length_map] at first second
              rw [List.getElem_map, List.getElem_map]
              exact (found second first).2
          constructor
          · intro comparison member
            obtain ⟨part, inside, listed⟩ := List.mem_flatMap.mp member
            obtain ⟨index, bound, rfl⟩ := List.mem_iff_getElem.mp inside
            exact (found bound (length ▸ bound)).1 comparison listed
          · have whole := congrArg List.flatten texts
            rw [← List.flatMap_def, ← List.flatMap_def] at whole
            rw [List.flatMap_assoc, ← whole]
            cases statements with
            | nil => exact absurd (List.length_eq_zero_iff.mp length) some
            | cons first rest => exact bare_conjunction first rest

/-- A condition is that of its scope and the expression that is read. -/
theorem condition_compiled {compiler : DMLCompiler} {filter : Json.Object}
    {context : OperationContext} {statement : DMLStatement} {expression : Expression}
    (parsed : compiler.parseFilter filter = .ok (some expression))
    (compiled : compiler.condition layout filter context tableAlias = .ok statement) :
    ∃ scope written, compiler.scopeValues context = .ok scope ∧
      Query.compile (conditionTargets layout tableAlias) .condition [] expression = .ok written ∧
      statement = conjunction
        [DMLCompiler.scopeCondition tableAlias scope, plainParameters written] := by
  obtain ⟨scope, inScope, compiled⟩ := bind_eq_ok compiled
  obtain ⟨read, readOk, compiled⟩ := bind_eq_ok compiled
  cases parsed.symm.trans readOk
  obtain ⟨written, writtenOk, compiled⟩ := bind_eq_ok compiled
  cases compiled
  exact ⟨scope, written, inScope, writtenOk, rfl⟩

end Conditions

/-! ## What a text determines -/

/-- Two texts up to their first mark. -/
theorem append_mark_inj {α : Type} {mark : α} {left other rest others : List α}
    (plain : mark ∉ left) (otherPlain : mark ∉ other)
    (same : left ++ mark :: rest = other ++ mark :: others) : left = other ∧ rest = others := by
  induction left generalizing other with
  | nil =>
      cases other with
      | nil => exact ⟨rfl, (List.cons.inj same).2⟩
      | cons first later =>
          have head := (List.cons.inj same).1
          exact absurd (head ▸ List.mem_cons_self) otherPlain
  | cons first later induction =>
      cases other with
      | nil =>
          have head := (List.cons.inj same).1
          exact absurd (head ▸ List.mem_cons_self) plain
      | cons otherFirst otherLater =>
          rcases List.cons.inj same with ⟨rfl, tail⟩
          rcases induction (fun listed => plain (List.mem_cons_of_mem _ listed))
            (fun listed => otherPlain (List.mem_cons_of_mem _ listed)) tail with ⟨rfl, rest_same⟩
          exact ⟨rfl, rest_same⟩

theorem quoted_plain {identifier : String} (plain : '"' ∉ identifier.toList) :
    quoted identifier = '"' :: (identifier.toList ++ ['"']) := by
  have kept : ∀ characters : List Char, '"' ∉ characters →
      (characters.flatMap fun character =>
        if character = '"' then ['"', '"'] else [character]) = characters := by
    intro characters absent
    induction characters with
    | nil => rfl
    | cons character rest induction =>
        have different : character ≠ '"' := fun equal => absent (equal ▸ List.mem_cons_self)
        rw [List.flatMap_cons, induction fun listed => absent (List.mem_cons_of_mem _ listed),
          if_neg different]
        rfl
  unfold quoted
  rw [kept _ plain]
  rfl

/-- An operator is known by its first three characters. -/
theorem operator_append_inj {kind other : BinaryKind} {rest others : List Char}
    (same : kind.operator.toList ++ '%' :: rest = other.operator.toList ++ '%' :: others) :
    kind = other ∧ rest = others := by
  have known : ∀ (kind : BinaryKind) (rest : List Char),
      (kind.operator.toList ++ '%' :: rest).take 3 = kind.operator.toList.take 3 := by
    intro kind rest
    cases kind <;> rfl
  have different : ∀ kind other : BinaryKind,
      kind.operator.toList.take 3 = other.operator.toList.take 3 → kind = other := by
    intro kind other
    cases kind <;> cases other <;> first | exact fun _ => rfl | decide
  have kinds : kind = other := by
    apply different
    rw [← known kind rest, ← known other others, same]
  subst kinds
  exact ⟨rfl, (List.cons.inj (List.append_cancel_left same)).2⟩

section Determined

variable {tableAlias : String} {first other : String × BinaryKind} {rest others : List Char}

/-- A column holds neither quotes nor brackets. -/
def Plain (compared : String × BinaryKind) : Prop :=
  ∀ character ∈ compared.1.toList, character ≠ '"' ∧ character ≠ '(' ∧ character ≠ ')'

theorem bare_quoted (plain : Plain first) :
    bare (quoted first.1) = '"' :: (first.1.toList ++ ['"']) := by
  rw [quoted_plain fun listed => (plain _ listed).1 rfl]
  apply List.filter_eq_self.mpr
  intro character listed
  rw [decide_eq_true_eq]
  rcases List.mem_cons.mp listed with rfl | later
  · decide
  · rcases List.mem_append.mp later with inside | last
    · exact (plain character inside).2
    · rw [List.mem_singleton.mp last]
      decide

theorem bare_operator (kind : BinaryKind) : bare (kind.operator.toList ++ ['%', 's']) =
    kind.operator.toList ++ ['%', 's'] := by
  cases kind <;> decide

theorem comparisonText_append_inj (plain : Plain first) (otherPlain : Plain other)
    (same : comparisonText tableAlias first ++ rest = comparisonText tableAlias other ++ others) :
    first = other ∧ rest = others := by
  have point : ∀ text : List Char, bare ('.' :: text) = '.' :: bare text := fun _ => rfl
  unfold comparisonText at same
  simp only [bare_append, point, bare_quoted plain, bare_quoted otherPlain] at same
  rw [← bare_append, ← bare_append, bare_operator, bare_operator] at same
  simp only [List.cons_append, List.append_assoc] at same
  have columns := List.append_cancel_left (List.append_cancel_left same)
  rcases append_mark_inj (fun listed => (plain _ listed).1 rfl)
    (fun listed => (otherPlain _ listed).1 rfl)
    (List.cons.inj (List.cons.inj columns).2).2 with ⟨names, operators⟩
  rcases operator_append_inj operators with ⟨kinds, later⟩
  exact ⟨Prod.ext (String.toList_injective names) kinds, by simpa using later⟩

theorem comparisonTexts_inj {left right : List (String × BinaryKind)}
    (plain : ∀ item ∈ left, Plain item) (otherPlain : ∀ item ∈ right, Plain item)
    (same : left.flatMap (comparisonText tableAlias) = right.flatMap (comparisonText tableAlias)) :
    left = right := by
  induction left generalizing right with
  | nil =>
      cases right with
      | nil => rfl
      | cons item later => exact nomatch same
  | cons item later induction =>
      cases right with
      | nil => exact nomatch same
      | cons otherItem otherLater =>
          rw [List.flatMap_cons, List.flatMap_cons] at same
          rcases comparisonText_append_inj (plain item List.mem_cons_self)
            (otherPlain otherItem List.mem_cons_self) same with ⟨rfl, tail⟩
          rw [induction (fun item listed => plain item (List.mem_cons_of_mem _ listed))
            (fun item listed => otherPlain item (List.mem_cons_of_mem _ listed)) tail]

end Determined

section Layouts

variable {layout : ResourceLayout}

theorem comparedColumn_plain (compared : String × BinaryKind) :
    Plain (comparedColumn layout compared) := by
  unfold Plain comparedColumn columnOf
  cases layout.field compared.1 with
  | none => exact fun _ listed => absurd listed List.not_mem_nil
  | some field =>
      intro character listed
      have part := field.column.parts listed
      refine ⟨?_, ?_, ?_⟩
      all_goals
        rintro rfl
        exact nomatch part

theorem columnOf_inj (unique : (layout.fields.map FieldLayout.column).Nodup)
    {name other : String} (present : (layout.field name).isSome = true)
    (otherPresent : (layout.field other).isSome = true)
    (same : columnOf layout name = columnOf layout other) : name = other := by
  rcases Option.isSome_iff_exists.mp present with ⟨field, found⟩
  rcases Option.isSome_iff_exists.mp otherPresent with ⟨otherField, otherFound⟩
  simp only [columnOf, found, otherFound, Option.map_some, Option.getD_some] at same
  have fields : field = otherField :=
    List.inj_on_of_nodup_map unique (List.mem_of_find?_eq_some found)
      (List.mem_of_find?_eq_some otherFound) (Identifier.ext same)
  have named := List.find?_some found
  have otherNamed := List.find?_some otherFound
  simp only [decide_eq_true_eq] at named otherNamed
  rw [← named, ← otherNamed, fields]

theorem compared_of_columns (unique : (layout.fields.map FieldLayout.column).Nodup)
    {left right : List Comparison}
    (present : ∀ comparison ∈ left, (layout.field comparison.field).isSome = true)
    (otherPresent : ∀ comparison ∈ right, (layout.field comparison.field).isSome = true)
    (same : (left.map fun comparison => comparedColumn layout comparison.compared) =
      right.map fun comparison => comparedColumn layout comparison.compared) :
    left.map Comparison.compared = right.map Comparison.compared := by
  induction left generalizing right with
  | nil => rw [List.map_eq_nil_iff.mp same.symm]
  | cons comparison rest induction =>
      cases right with
      | nil => exact nomatch same
      | cons otherComparison others =>
          rcases List.cons.inj same with ⟨head, tail⟩
          rcases Prod.mk.inj head with ⟨columns, kinds⟩
          have names := columnOf_inj unique (present comparison List.mem_cons_self)
            (otherPresent otherComparison List.mem_cons_self) columns
          rw [List.map_cons, List.map_cons, Prod.ext names kinds, induction
            (fun item listed => present item (List.mem_cons_of_mem _ listed))
            (fun item listed => otherPresent item (List.mem_cons_of_mem _ listed)) tail]

theorem compared_of_texts (unique : (layout.fields.map FieldLayout.column).Nodup)
    {tableAlias : String} {left right : List Comparison}
    (present : ∀ comparison ∈ left, (layout.field comparison.field).isSome = true)
    (otherPresent : ∀ comparison ∈ right, (layout.field comparison.field).isSome = true)
    (same : (left.flatMap fun comparison =>
        comparisonText tableAlias (comparedColumn layout comparison.compared)) =
      right.flatMap fun comparison =>
        comparisonText tableAlias (comparedColumn layout comparison.compared)) :
    left.map Comparison.compared = right.map Comparison.compared := by
  apply compared_of_columns unique present otherPresent
  have plain : ∀ listed : List Comparison, ∀ item ∈ listed.map fun comparison =>
      comparedColumn layout comparison.compared, Plain item := by
    intro listed item inside
    obtain ⟨comparison, _, rfl⟩ := List.mem_map.mp inside
    exact comparedColumn_plain comparison.compared
  apply @comparisonTexts_inj tableAlias _ _ (plain left) (plain right)
  rwa [List.flatMap_map, List.flatMap_map]

/-- Two conditions on one layout have one text exactly when they compare the
same fields in the same way. -/
theorem condition_text_iff {compiler : DMLCompiler} {reader : FilterReader}
    {filter other : Json.Object} {context : OperationContext} {tableAlias : String}
    {statement otherStatement : DMLStatement}
    (reads : ReadsFilters reader layout compiler.parseFilter)
    (unique : (layout.fields.map FieldLayout.column).Nodup)
    (documented : reader.Documented layout filter)
    (otherDocumented : reader.Documented layout other)
    (compiled : compiler.condition layout filter context tableAlias = .ok statement)
    (otherCompiled : compiler.condition layout other context tableAlias = .ok otherStatement) :
    statement.command.render = otherStatement.command.render ↔
      reader.operators filter = reader.operators other := by
  obtain ⟨expression, listed, parsed, joined, _, order⟩ := reads.reads documented
  obtain ⟨otherExpression, otherListed, otherParsed, otherJoined, _, otherOrder⟩ :=
    reads.reads otherDocumented
  obtain ⟨scope, written, inScope, writtenOk, rfl⟩ := condition_compiled parsed compiled
  obtain ⟨otherScope, otherWritten, otherInScope, otherOk, rfl⟩ :=
    condition_compiled otherParsed otherCompiled
  cases inScope.symm.trans otherInScope
  have compiles := compile_compiles [] expression written writtenOk
  have otherCompiles := compile_compiles [] otherExpression otherWritten otherOk
  constructor
  · intro same
    obtain ⟨present, text⟩ := joined.text compiles
    obtain ⟨otherPresent, otherText⟩ := otherJoined.text otherCompiles
    have bared := congrArg (fun text => andText ++ bare text) same
    simp only [bare_conjunction, List.flatMap_cons, List.flatMap_nil, List.append_nil] at bared
    have texts := List.append_cancel_left bared
    change andText ++ bare written.command.render = andText ++ bare otherWritten.command.render
      at texts
    rw [text, otherText] at texts
    rw [← order, ← otherOrder]
    exact compared_of_texts unique present otherPresent texts
  · intro same
    have commands := compiles.command_eq (reads.shapes documented otherDocumented same parsed
      otherParsed) otherCompiles
    simp only [conjunction, List.map_cons, List.map_nil, plainParameters, commands]

end Layouts

end MeridianPostgreSQL.Query
