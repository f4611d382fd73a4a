import MeridianPostgreSQL.Query.Filters

/-! # Conditions on an identity

The condition by which a put finds its record: the scope, and each identity
value compared with its column. The values are bound as the compiler of queries
encodes them. -/

namespace MeridianPostgreSQL.Query

open Settings

/-! ## Identity fields -/

/-- The fields of an identity are immutable, never null and hold one value. -/
theorem identity_fields {layout : ResourceLayout} (valid : layout.check = .ok ())
    (held : layout.isRegistry = false) {name : String} {field : FieldLayout}
    (listed : name ∈ layout.identity) (found : layout.field name = some field) :
    field.nullable = false ∧ field.mutable = false ∧ field.cardinality = .one := by
  unfold ResourceLayout.check at valid
  rw [if_neg (by simp [held])] at valid
  split at valid
  · exact nomatch valid
  · split at valid
    · exact nomatch valid
    · split at valid
      · exact nomatch valid
      · split at valid
        · exact nomatch valid
        · split at valid
          · exact nomatch valid
          · split at valid
            · exact nomatch valid
            · rename_i plain
              have member : field ∈ layout.identity.filterMap layout.field :=
                List.mem_filterMap.mpr ⟨name, listed, found⟩
              obtain ⟨present, free⟩ := not_or.mp fun broken => plain ⟨field, member, broken⟩
              obtain ⟨fixed, single⟩ := not_or.mp free
              exact ⟨eq_false_of_ne_true present, eq_false_of_ne_true fixed, not_not.mp single⟩

/-! ## Conditions -/

/-- A column, and the value that it is compared with as it is bound. -/
structure Equality where
  column : String
  origin : Origin
  value : Json

namespace Equality

def query (tableAlias : String) (equality : Equality) : QueryStatement :=
  ⟨[Piece.text "("] ++ ident [tableAlias, equality.column] ++ [Piece.text " = "] ++
      [Piece.slot equality.origin] ++ [Piece.text ")"], [⟨equality.origin, equality.value⟩]⟩

def statement (tableAlias : String) (equality : Equality) : DMLStatement :=
  plainParameters (equality.query tableAlias)

/-- What is compared with what. -/
def compared (equality : Equality) : String × Json := (equality.column, equality.value)

end Equality

/-- One comparison stands alone and several are joined. -/
def equalities (tableAlias : String) : List Equality → DMLStatement
  | [single] => single.statement tableAlias
  | several => conjunction (several.map (Equality.statement tableAlias))

def identityCondition (tableAlias : String) (scope : List (String × String))
    (compared : List Equality) : DMLStatement :=
  conjunction [DMLCompiler.scopeCondition tableAlias scope, equalities tableAlias compared]

/-- An entry of a filter, encoded for its column. -/
def encodedEntry (layout : ResourceLayout) (entry : String × Json) : Compiled (String × Json) := do
  let field ← namedField layout entry.1
  let value ← encodeQueryValue field entry.2
  .ok (field.column.text, value)

section Conditions

variable {layout : ResourceLayout} {tableAlias : String}

theorem conditionTargets_found {name : String} {field : FieldLayout}
    (found : layout.field name = some field) :
    (conditionTargets layout tableAlias).field none name = .ok (tableAlias, field) := by
  simp [Targets.field, Targets.resource, conditionTargets, lookupKey, found, bind, Except.bind]

theorem compile_equality {site : Site} {path : List Nat} {name : String} {value encoded : Json}
    {field : FieldLayout} (found : layout.field name = some field)
    (encodes : encodeQueryValue field value = .ok encoded) :
    Query.compile (conditionTargets layout tableAlias) site path
        (Comparison.expression ⟨name, .eq, value⟩) =
      .ok (Equality.query tableAlias
        ⟨field.column.text, .expression site (path ++ [1]) .literal, encoded⟩) := by
  have named := @conditionTargets_found layout tableAlias name field found
  simp [Comparison.expression, Query.compile, Equality.query, named, Targets.expressionField,
    adaptIf, adapt,
    adaptParameter, literalStatement, bound, slot, encodes, binaryStatement, BinaryKind.operator,
    Expression.isLiteral, bind, Except.bind, Except.map, pure, Except.pure]

theorem encodedEntry_ok {entry : String × Json} {encoded : String × Json}
    (encodes : encodedEntry layout entry = .ok encoded) :
    ∃ field, layout.field entry.1 = some field ∧ encoded.1 = field.column.text ∧
      encodeQueryValue field entry.2 = .ok encoded.2 := by
  obtain ⟨field, named, encodes⟩ := bind_eq_ok encodes
  obtain ⟨value, valueOk, encodes⟩ := bind_eq_ok encodes
  cases encodes
  refine ⟨field, ?_, rfl, valueOk⟩
  unfold namedField at named
  split at named
  · cases named
    assumption
  · cases named

/-- Entries are compiled one after another, each at its own place. -/
theorem compileAll_equalities {site : Site} {path : List Nat} {filter : Json.Object}
    {encoded : List (String × Json)} (encodes : filter.mapM (encodedEntry layout) = .ok encoded)
    (index : Nat) :
    ∃ compared : List Equality, compared.map Equality.compared = encoded ∧
      compileAll (conditionTargets layout tableAlias) site path index
          (filter.map fun entry => (equalTo entry).expression) =
        .ok (compared.map (Equality.query tableAlias)) := by
  induction filter generalizing index encoded with
  | nil =>
      rw [List.mapM_nil] at encodes
      cases encodes
      exact ⟨[], rfl, rfl⟩
  | cons entry rest induction =>
      rw [List.mapM_cons] at encodes
      obtain ⟨first, firstOk, encodes⟩ := bind_eq_ok encodes
      obtain ⟨others, othersOk, encodes⟩ := bind_eq_ok encodes
      cases encodes
      obtain ⟨field, found, column, valueOk⟩ := encodedEntry_ok firstOk
      obtain ⟨compared, same, compiled⟩ := induction othersOk (index + 1)
      have head := @compile_equality layout tableAlias site (path ++ [index]) entry.1 entry.2
        first.2 field found valueOk
      refine ⟨⟨field.column.text, .expression site (path ++ [index] ++ [1]) .literal, first.2⟩ ::
        compared, ?_, ?_⟩
      · rw [List.map_cons, same, Equality.compared, ← column]
      · rw [List.map_cons, compileAll]
        unfold equalTo at head compiled ⊢
        rw [head, compiled]
        rfl

end Conditions

section Identity

variable {compiler : DMLCompiler} {layout : ResourceLayout} {context : OperationContext}
  {filter : Json.Object} {scope : List (String × String)}

theorem plain_conjunction (statements : List QueryStatement) :
    plainParameters (conjunction statements) = conjunction (statements.map plainParameters) := by
  cases statements with
  | nil => rfl
  | cons first rest =>
      simp [conjunction, plainParameters, allParameters, List.map_flatMap, List.flatMap_map,
        Function.comp_def]

theorem mapM_exists {α β : Type} {f : α → Compiled β} {items : List α}
    (each : ∀ item ∈ items, ∃ result, f item = .ok result) :
    ∃ results, items.mapM f = .ok results := by
  induction items with
  | nil => exact ⟨[], rfl⟩
  | cons item rest induction =>
      obtain ⟨first, firstOk⟩ := each item List.mem_cons_self
      obtain ⟨others, othersOk⟩ := induction fun other listed =>
        each other (List.mem_cons_of_mem item listed)
      exact ⟨first :: others, by rw [List.mapM_cons, firstOk, othersOk]; rfl⟩

/-- The condition that is compiled for the scalar values of an identity. -/
theorem condition_identity {tableAlias : String}
    (reads : ReadsScalars layout compiler.parseFilter) (nonempty : filter ≠ [])
    (scalar : ∀ entry ∈ filter, isScalar entry.2 = true ∧ entry.2 ≠ .null)
    (scopeOk : compiler.scopeValues context = .ok scope)
    (encodes : ∀ entry ∈ filter, ∃ encoded, encodedEntry layout entry = .ok encoded) :
    ∃ (arranged : Json.Object) (compared : List Equality), arranged.Perm filter ∧
      arranged.mapM (encodedEntry layout) = .ok (compared.map Equality.compared) ∧
      compiler.condition layout filter context tableAlias =
        .ok (identityCondition tableAlias scope compared) := by
  have fields : ∀ entry ∈ filter, (layout.field entry.1).isSome = true := by
    intro entry listed
    obtain ⟨encoded, encodedOk⟩ := encodes entry listed
    obtain ⟨field, found, _⟩ := encodedEntry_ok encodedOk
    rw [found, Option.isSome_some]
  obtain ⟨arranged, rearranged, parsed⟩ := reads filter nonempty fun entry listed =>
    ⟨fields entry listed, scalar entry listed⟩
  obtain ⟨encoded, encodedOk⟩ := mapM_exists fun entry listed =>
    encodes entry (rearranged.subset listed)
  have present : arranged ≠ [] := fun empty => nonempty (by simpa [empty] using rearranged)
  unfold DMLCompiler.condition
  rw [scopeOk, parsed]
  refine ⟨arranged, ?_⟩
  cases arranged with
  | nil => exact absurd rfl present
  | cons entry rest =>
      cases rest with
      | nil =>
          rw [List.mapM_cons] at encodedOk
          obtain ⟨first, firstOk, encodedOk⟩ := bind_eq_ok encodedOk
          rw [List.mapM_nil] at encodedOk
          cases encodedOk
          obtain ⟨field, found, column, valueOk⟩ := encodedEntry_ok firstOk
          have compiled := @compile_equality layout tableAlias .condition [] entry.1 entry.2
            first.2 field found valueOk
          refine ⟨[⟨field.column.text, .expression .condition ([] ++ [1]) .literal, first.2⟩],
            rearranged, ?_, ?_⟩
          · rw [List.mapM_cons, List.mapM_nil, firstOk, List.map_singleton, Equality.compared,
              ← column]
            rfl
          · simp only [List.map_cons, List.map_nil, conjoined, bind, Except.bind]
            unfold equalTo conditionTargets at *
            rw [compiled]
            rfl
      | cons second rest =>
          obtain ⟨compared, same, compiled⟩ :=
            @compileAll_equalities layout tableAlias .condition [] _ _ encodedOk 0
          refine ⟨compared, rearranged, same ▸ encodedOk, ?_⟩
          have several : equalities tableAlias compared =
              conjunction (compared.map (Equality.statement tableAlias)) := by
            have length := congrArg List.length same
            have size := (mapM_eq_ok encodedOk).length_eq
            rw [List.length_map] at length
            unfold equalities
            split
            · simp only [List.length_cons, List.length_nil] at length size
              omega
            · rfl
          unfold conditionTargets at compiled
          simp only [List.map_cons, conjoined, bind, Except.bind, Query.compile]
          simp only [List.map_cons] at compiled
          rw [List.map_map]
          unfold Function.comp
          rw [compiled, identityCondition, several]
          simp only [booleanStatement, plain_conjunction, List.map_map]
          rfl

end Identity

end MeridianPostgreSQL.Query
