import MeridianPostgreSQL.Query.Adaptation
import MeridianPostgreSQL.Query.Execution
import MeridianPostgreSQL.Query.TraversalBounds
import Mathlib.Data.List.Induction

/-! # Markers and the values beside them

Markers of the adapter and values of a request reach the execution as
parameters of one kind, which tells them apart by their shape. -/

namespace MeridianPostgreSQL.Query

open Settings

/-! ## Shapes -/

/-- An object that an execution takes for a marker. -/
def isMarker : Json → Bool
  | .object [(name, _)] => name = "$scope" || name = "$postgresql"
  | _ => false

/-- A marker of a column of the scope. -/
def namesScope : Json → Bool
  | .object [("$scope", .string column)] =>
      column = "__tenant" || column.startsWith "__scope_"
  | _ => false

/-- What is bound depends on the scope of the request. -/
def ReadsScope (value : Json) : Prop :=
  ∃ execution other : OperationContext,
    executionValue execution value ≠ executionValue other value

theorem executionValue_jsonb (execution : OperationContext) (value : Json) :
    executionValue execution (marker "jsonb" value) = .ok (.jsonb value) := rfl

theorem executionValue_base64url (execution : OperationContext) (value : Json) :
    executionValue execution (marker "base64url" value) =
      (decodeBase64url value "query parameter").map .bytes := rfl

theorem decodeQueryValue_plain {value : Json} (plain : isMarker value = false) :
    decodeQueryValue value = .ok (.plain value) := by
  unfold decodeQueryValue
  split
  · exact nomatch plain
  · rfl

theorem isMarker_iff (value : Json) : isMarker value = true ↔
    ∃ held, value = .object [("$scope", held)] ∨ value = .object [("$postgresql", held)] := by
  constructor
  · intro marked
    unfold isMarker at marked
    split at marked
    · rename_i name held
      rcases Bool.or_eq_true_iff.mp marked with same | same
      · exact ⟨held, .inl (by rw [of_decide_eq_true same])⟩
      · exact ⟨held, .inr (by rw [of_decide_eq_true same])⟩
    · exact nomatch marked
  · rintro ⟨held, rfl | rfl⟩ <;> rfl

/-- What is decoded from a marker is not the marker. -/
theorem decodeQueryValue_marker (held : Json) :
    decodeQueryValue (.object [("$postgresql", held)]) ≠
      .ok (.plain (.object [("$postgresql", held)])) := by
  intro same
  simp only [decodeQueryValue] at same
  split at same
  · split at same
    · split at same
      · exact nomatch same
      · split at same
        · exact nomatch same
        · split at same
          · obtain ⟨data, _, other⟩ := map_eq_ok same
            exact nomatch other
          · exact nomatch same
    · exact nomatch same
  · exact nomatch same

theorem executionValue_scope {execution : OperationContext} {held : Json} {bound : DriverValue}
    (executed : executionValue execution (.object [("$scope", held)]) = .ok bound) :
    ∃ text, bound = .plain (.string text) := by
  unfold executionValue at executed
  split at executed
  · obtain ⟨text, _, same⟩ := map_eq_ok executed
    exact ⟨text, same.symm⟩
  · exact nomatch executed
  · rename_i unscoped
    exact absurd rfl (unscoped held)

theorem executionValue_unscoped {execution : OperationContext} {value : Json}
    (unscoped : ∀ held, value ≠ .object [("$scope", held)]) :
    executionValue execution value = decodeQueryValue value := by
  unfold executionValue
  split
  · exact absurd rfl (unscoped _)
  · exact absurd rfl (unscoped _)
  · rfl

/-- A value is bound as it is exactly when it is not shaped like a marker. -/
theorem executionValue_plain_iff (execution : OperationContext) (value : Json) :
    executionValue execution value = .ok (.plain value) ↔ isMarker value = false := by
  constructor
  · intro executed
    apply Bool.eq_false_iff.mpr
    intro marked
    obtain ⟨held, rfl | rfl⟩ := (isMarker_iff value).mp marked
    · obtain ⟨text, same⟩ := executionValue_scope executed
      exact nomatch same
    · have decoded := @executionValue_unscoped execution
        (.object [("$postgresql", held)]) (by simp)
      exact decodeQueryValue_marker held (decoded.symm.trans executed)
  · intro plain
    rw [executionValue_unscoped, decodeQueryValue_plain plain]
    rintro held rfl
    exact nomatch plain

/-- A column that is not of the scope has no value in any request. -/
theorem scopeParameter_unnamed {column : String}
    (unnamed : namesScope (.object [("$scope", .string column)]) = false)
    (execution : OperationContext) :
    scopeParameter execution column = .error (.value "compiled scope marker is invalid") := by
  simp only [namesScope, Bool.or_eq_false_iff, decide_eq_false_iff_not] at unnamed
  rw [scopeParameter, if_neg unnamed.1, if_neg (by simpa using unnamed.2)]

/-- Only the value of the tenant or of a scope column depends on the request. -/
theorem readsScope_iff (value : Json) : ReadsScope value ↔ namesScope value = true := by
  constructor
  · rintro ⟨execution, other, differ⟩
    by_contra unnamed
    have unnamed := Bool.eq_false_iff.mpr unnamed
    apply differ
    by_cases shaped : ∃ held, value = .object [("$scope", held)]
    · obtain ⟨held, rfl⟩ := shaped
      cases held with
      | string column =>
          simp only [executionValue, scopeParameter_unnamed unnamed]
      | _ => rfl
    · rw [executionValue_unscoped fun held same => shaped ⟨held, same⟩,
        executionValue_unscoped fun held same => shaped ⟨held, same⟩]
  · intro named
    unfold namesScope at named
    split at named
    · rename_i column
      refine ⟨⟨none, []⟩, ⟨some "", [((column.drop 8).toString, "")]⟩, ?_⟩
      simp only [executionValue, scopeParameter]
      by_cases tenant : column = "__tenant"
      · simp [tenant, Except.map]
      · have starts : column.startsWith "__scope_" = true := by simpa [tenant] using named
        simp [tenant, starts, Except.map]
    · exact nomatch named

/-! ## Encoded values -/

/-- The field wraps a value that is adapted to it in a marker. -/
def wraps (field : FieldLayout) : Bool := field.isJson || field.logicalType = .bytes

theorem encodeQueryValue_unwrapped {field : FieldLayout} (unwrapped : wraps field = false)
    (value : Json) : encodeQueryValue field value = .ok value ∧
      adaptDriverValue field value = .ok (.plain value) := by
  simp only [wraps, Bool.or_eq_false_iff, decide_eq_false_iff_not] at unwrapped
  simp [encodeQueryValue, adaptDriverValue, unwrapped.1, unwrapped.2]

theorem decodeBase64url_name {value : Json} {name : String} {data : List Nat}
    (decoded : decodeBase64url value name = .ok data) (other : String) :
    decodeBase64url value other = .ok data := by
  unfold decodeBase64url at decoded ⊢
  split at decoded
  · dsimp only at decoded ⊢
    split at decoded
    · split at decoded
      · rename_i accepted
        rw [if_pos accepted]
        exact decoded
      · exact nomatch decoded
    · exact nomatch decoded
  · exact nomatch decoded

/-- What a wrapping field makes of a value. -/
theorem encodeQueryValue_wrapped {field : FieldLayout} {value encoded : Json}
    (wrapped : wraps field = true) (encodes : encodeQueryValue field value = .ok encoded) :
    (field.isJson = true ∧ encoded = marker "jsonb" value) ∨
      (field.isJson = false ∧ encoded = marker "base64url" value ∧
        ∃ data, decodeBase64url value field.name = .ok data) := by
  unfold encodeQueryValue at encodes
  cases json : field.isJson with
  | true =>
      rw [json, if_pos rfl] at encodes
      exact .inl ⟨rfl, (Except.ok.inj encodes).symm⟩
  | false =>
      have bytes : field.logicalType = .bytes := by simpa [wraps, json] using wrapped
      rw [json, if_neg Bool.false_ne_true, if_pos bytes] at encodes
      obtain ⟨data, decoded, rfl⟩ := map_eq_ok encodes
      exact .inr ⟨rfl, rfl, data, decoded⟩

/-- The driver is given what it would be given to write the value. -/
theorem executionValue_wrapped {field : FieldLayout} {value encoded : Json}
    (wrapped : wraps field = true) (encodes : encodeQueryValue field value = .ok encoded)
    (execution : OperationContext) :
    executionValue execution encoded = adaptDriverValue field value := by
  obtain ⟨json, rfl⟩ | ⟨text, rfl, data, decoded⟩ := encodeQueryValue_wrapped wrapped encodes
  · rw [executionValue_jsonb, adaptDriverValue, if_pos json]
  · have bytes : field.logicalType = .bytes := by simpa [wraps, text] using wrapped
    rw [executionValue_base64url, adaptDriverValue, if_neg (by simp [text]), if_pos bytes,
      decodeBase64url_name decoded, decoded]

/-- How often a value has been wrapped. -/
inductive Wrapped (adapters : List FieldLayout) (value encoded : Json) : Prop
  | never (none : adapters.filter wraps = []) (same : encoded = value)
  | once (field : FieldLayout) (one : adapters.filter wraps = [field])
      (encodes : encodeQueryValue field value = .ok encoded)
  | again (several : 2 ≤ (adapters.filter wraps).length) (encoding : String) (inner : Json)
      (nested : encoded = marker "jsonb" (marker encoding inner))
      (larger : sizeOf value < sizeOf (marker encoding inner))

theorem sizeOf_marker (encoding : String) (value : Json) :
    sizeOf value < sizeOf (marker encoding value) := by
  simp [marker]
  omega

theorem encodeAll_wrapped {adapters : List FieldLayout} {value encoded : Json}
    (encodes : encodeAll adapters value = .ok encoded) : Wrapped adapters value encoded := by
  induction adapters using List.reverseRecOn generalizing encoded with
  | nil =>
      cases encodes
      exact .never rfl rfl
  | append_singleton fields field induction =>
      rw [encodeAll_append] at encodes
      obtain ⟨before, beforeOk, last⟩ := bind_eq_ok encodes
      have adapted : encodeQueryValue field before = .ok encoded := by
        simpa [encodeAll] using last
      have earlier := induction beforeOk
      cases wrapped : wraps field with
      | false =>
          cases (encodeQueryValue_unwrapped wrapped before).1.symm.trans adapted
          have same : (fields ++ [field]).filter wraps = fields.filter wraps := by
            simp [wrapped]
          cases earlier with
          | never none equal => exact .never (same.trans none) equal
          | once other one encodes => exact .once other (same.trans one) encodes
          | again several encoding inner nested larger =>
              exact .again (same ▸ several) encoding inner nested larger
      | true =>
          have grows : (fields ++ [field]).filter wraps = fields.filter wraps ++ [field] := by
            simp [wrapped]
          have nests : ∀ {encoding inner}, before = marker encoding inner →
              encoded = marker "jsonb" before := by
            rintro encoding inner rfl
            obtain ⟨_, same⟩ | ⟨_, _, _, impossible⟩ := encodeQueryValue_wrapped wrapped adapted
            · exact same
            · cases impossible
          cases earlier with
          | never none equal =>
              subst equal
              exact .once field (by rw [grows, none]; rfl) adapted
          | once other one encodes =>
              have several : 2 ≤ ((fields ++ [field]).filter wraps).length := by
                rw [grows, one]
                exact Nat.le_refl 2
              have unwrapped : wraps other = true :=
                (List.mem_filter.mp (one ▸ List.mem_singleton.mpr rfl)).2
              obtain ⟨_, rfl⟩ | ⟨_, rfl, _⟩ := encodeQueryValue_wrapped unwrapped encodes
              · exact .again several _ _ (nests rfl) (sizeOf_marker _ _)
              · exact .again several _ _ (nests rfl) (sizeOf_marker _ _)
          | again several encoding inner nested larger =>
              subst nested
              refine .again ?_ _ _ (nests rfl) (larger.trans (sizeOf_marker _ _))
              rw [grows, List.length_append]
              omega

/-! ## What a literal is bound as -/

/-- A value is bound as it is, or as a field that adapts it would write it. -/
def BoundAs (adapters : List FieldLayout) (value : Json) (given : Compiled DriverValue) : Prop :=
  given = .ok (.plain value) ∨ ∃ field ∈ adapters, given = adaptDriverValue field value

/-- A value is wrapped once, or needs no wrapping. -/
def KeepsValue (adapters : List FieldLayout) (value : Json) : Prop :=
  (adapters.filter wraps).length = 1 ∨ adapters.filter wraps = [] ∧ isMarker value = false

theorem adaptDriverValue_cases {field : FieldLayout} {value : Json} {given : DriverValue}
    (adapted : adaptDriverValue field value = .ok given) :
    given = .jsonb value ∨ given = .plain value ∨ ∃ data, given = .bytes data := by
  unfold adaptDriverValue at adapted
  split at adapted
  · exact .inl (Except.ok.inj adapted).symm
  · split at adapted
    · obtain ⟨data, _, same⟩ := map_eq_ok adapted
      exact .inr (.inr ⟨data, same.symm⟩)
    · exact .inr (.inl (Except.ok.inj adapted).symm)

/-- A value that is wrapped again is bound with a marker in it. -/
theorem not_boundAs_again {adapters : List FieldLayout} {value nested : Json}
    (larger : sizeOf value < sizeOf nested) : ¬BoundAs adapters value (.ok (.jsonb nested)) := by
  rintro (same | ⟨field, _, same⟩)
  · exact nomatch same
  · obtain equal | equal | ⟨_, equal⟩ := adaptDriverValue_cases same.symm
    · cases equal
      exact Nat.lt_irrefl _ larger
    · exact nomatch equal
    · exact nomatch equal

theorem boundAs_iff {adapters : List FieldLayout} {value encoded : Json}
    (encodes : encodeAll adapters value = .ok encoded) (execution : OperationContext) :
    BoundAs adapters value (executionValue execution encoded) ↔ KeepsValue adapters value := by
  cases encodeAll_wrapped encodes with
  | never none same =>
      subst same
      rw [KeepsValue, none]
      simp only [List.length_nil, Nat.zero_ne_one, true_and, false_or]
      rw [← executionValue_plain_iff execution]
      constructor
      · rintro (bound | ⟨field, member, bound⟩)
        · exact bound
        · have unwrapped : wraps field = false := by
            apply Bool.eq_false_iff.mpr
            intro wrapped
            exact List.not_mem_nil (none ▸ List.mem_filter.mpr ⟨member, wrapped⟩)
          exact bound.trans (encodeQueryValue_unwrapped unwrapped _).2
      · exact .inl
  | once field one encodes =>
      have member := List.mem_filter.mp (one ▸ List.mem_singleton.mpr rfl :
        field ∈ adapters.filter wraps)
      refine iff_of_true ?_ (.inl (by rw [one]; rfl))
      exact .inr ⟨field, member.1, executionValue_wrapped member.2 encodes execution⟩
  | again several encoding inner nested larger =>
      subst nested
      rw [executionValue_jsonb]
      refine iff_of_false (not_boundAs_again larger) ?_
      rintro (once | ⟨none, _⟩)
      · omega
      · rw [none] at several
        exact absurd several (by decide)

theorem readsScope_encoded {adapters : List FieldLayout} {value encoded : Json}
    (encodes : encodeAll adapters value = .ok encoded) :
    ReadsScope encoded ↔ adapters.filter wraps = [] ∧ namesScope value = true := by
  rw [readsScope_iff]
  cases encodeAll_wrapped encodes with
  | never none same => simp [none, same]
  | once field one encodes =>
      have wrapped : wraps field = true :=
        (List.mem_filter.mp (one ▸ List.mem_singleton.mpr rfl)).2
      refine iff_of_false ?_ (by simp [one])
      obtain ⟨_, rfl⟩ | ⟨_, rfl, _⟩ := encodeQueryValue_wrapped wrapped encodes
      · exact nofun
      · exact nofun
  | again several encoding inner nested larger =>
      subst nested
      refine iff_of_false nofun ?_
      rintro ⟨none, _⟩
      rw [none] at several
      exact absurd several (by decide)

/-! ## Slots of a plan -/

section Slots

variable {translator : PostgreSQLQueryTranslator} {operation : QueryOperation}

theorem TargetsAt.unique {site : Site} {targets others : Targets}
    (first : TargetsAt translator operation site targets)
    (second : TargetsAt translator operation site others) : targets = others := by
  cases first with
  | selection selects found =>
      cases second with
      | selection _ again => exact Except.ok.inj (found.symm.trans again)
      | relation => exact nomatch selects
  | relation given held found =>
      cases second with
      | selection selects => exact nomatch selects
      | relation given' held' found' =>
          cases given.symm.trans given'
          cases held.symm.trans held'
          cases found.symm.trans found'
          rfl

theorem StandsFor.unique {origin : Origin} {adapters others : List FieldLayout}
    {value other : Json} (expression : origin.isExpression = true)
    (first : StandsFor translator operation origin adapters value)
    (second : StandsFor translator operation origin others other) :
    adapters = others ∧ value = other := by
  cases origin with
  | expression site path part =>
      obtain ⟨root, targets, inner, given, chosen, reached, binds, rfl⟩ := first
      obtain ⟨root', targets', inner', given', chosen', reached', binds', rfl⟩ := second
      cases given.symm.trans given'
      cases chosen.unique chosen'
      cases reached.symm.trans reached'
      cases binds.symm.trans binds'
      exact ⟨rfl, rfl⟩
  | _ => exact nomatch expression

/-- Of what is no expression and no scope column, only the values of a cursor
may name the scope. -/
theorem Supplies.unique_or_unscoped {origin : Origin} {value other : Json}
    (plain : origin.isExpression = false) (foreign : origin.isScope = false)
    (first : Supplies translator operation origin value)
    (second : Supplies translator operation origin other) :
    value = other ∨ namesScope value = false ∧ namesScope other = false := by
  cases first with
  | expression => exact nomatch plain
  | scope => exact nomatch foreign
  | cursor signs given verified held =>
      cases second with
      | cursor signs' given' verified' held' =>
          cases signs.symm.trans signs'
          cases given.symm.trans given'
          cases verified.symm.trans verified'
          exact .inl (Option.some.inj (held.symm.trans held'))
  | _ => cases second <;> exact .inr ⟨rfl, rfl⟩

end Slots

namespace PostgreSQLQueryTranslator

/-- Whether a slot of an accepted plan is bound as it was given, and whether it
is bound to a value of the scope, for every slot that is not of the scope. -/
theorem slot_bound_iff {translator : PostgreSQLQueryTranslator} {plan : Plan}
    {context : TranslationContext} {compiled : CompiledQuery}
    (accepted : translator.compile plan context = .ok compiled)
    {parameter : Parameter Origin Json} (bound : parameter ∈ compiled.statement.parameters)
    (foreign : parameter.origin.isScope = false) :
    (∀ site path adapters value, parameter.origin = .expression site path .literal →
      StandsFor translator plan.operation parameter.origin adapters value →
      ((∀ execution, BoundAs adapters value (executionValue execution parameter.value)) ↔
        KeepsValue adapters value)) ∧
    (ReadsScope parameter.value ↔ ∃ adapters value,
      StandsFor translator plan.operation parameter.origin adapters value ∧
        adapters.filter wraps = [] ∧ namesScope value = true) := by
  obtain ⟨adapters, value, stands, encodes⟩ := compile_plan_adapted accepted bound foreign
  constructor
  · intro site path others other literal standsOther
    obtain ⟨rfl, rfl⟩ := stands.unique (by rw [literal]; rfl) standsOther
    have each := boundAs_iff encodes
    exact ⟨fun all => (each ⟨none, []⟩).mp (all _), fun keeps execution =>
      (each execution).mpr keeps⟩
  · rw [readsScope_encoded encodes]
    constructor
    · exact fun reads => ⟨adapters, value, stands, reads⟩
    · rintro ⟨others, other, standsOther, unwrapped, named⟩
      cases expression : parameter.origin.isExpression with
      | true =>
          obtain ⟨rfl, rfl⟩ := stands.unique expression standsOther
          exact ⟨unwrapped, named⟩
      | false =>
          generalize parameter.origin = origin at *
          cases origin with
          | expression => exact nomatch expression
          | _ =>
              obtain ⟨rfl, supplied⟩ := stands
              obtain ⟨rfl, suppliedOther⟩ := standsOther
              obtain rfl | ⟨_, other⟩ :=
                supplied.unique_or_unscoped expression foreign suppliedOther
              · exact ⟨unwrapped, named⟩
              · exact nomatch other.symm.trans named

/-! ## Starts of a relation -/

/-- The relations that a record is the source of. -/
def startsAt (record : Json) : Plan :=
  let filter : Expression := .binary .eq (.field none "source") (.literal record)
  { workScan filter with operation := { (workScan filter).operation with
      targets := ["structured:example.follows"] } }

def workReference : Json :=
  .object [("collectionRef", .string "structured:example.work"), ("recordId", .string "first")]

def sourceField : FieldLayout :=
  ⟨"source", ⟨"source", isIdentifier_source⟩, .recordRef, false, false, .one, none, none⟩

/-- The reference is wrapped for the source, a JSON field. -/
theorem startsAt_compiled : ∃ compiled wrapped,
    followsTranslator.compile (startsAt workReference) workContext = .ok compiled ∧
      ⟨.expression .filter [1] .literal, wrapped⟩ ∈ compiled.statement.parameters ∧
      isMarker wrapped = true :=
  ⟨_, _, rfl, .tail _ (.tail _ (.head _)), rfl⟩

theorem startsAt_stands : StandsFor followsTranslator (startsAt workReference).operation
    (.expression .filter [1] .literal) [sourceField] workReference :=
  ⟨_, _, _, rfl, .selection rfl rfl, rfl, rfl, rfl⟩

/-- The reference itself is bound, whatever the scope. -/
theorem startsAt_bound : ∃ compiled wrapped,
    followsTranslator.compile (startsAt workReference) workContext = .ok compiled ∧
      ⟨.expression .filter [1] .literal, wrapped⟩ ∈ compiled.statement.parameters ∧
      isMarker wrapped = true ∧
      ∀ execution, BoundAs [sourceField] workReference (executionValue execution wrapped) := by
  obtain ⟨compiled, wrapped, accepted, bound, marked⟩ := startsAt_compiled
  have literal := (slot_bound_iff accepted bound rfl).1 _ _ _ _ rfl startsAt_stands
  exact ⟨compiled, wrapped, accepted, bound, marked, literal.mpr (.inl rfl)⟩

/-! ## States of the work queue -/

def workStates (value : Json) : Plan :=
  workScan (.binary .eq (.field none "state") (.literal value))

/-- The slot of the literal is that of the second operand of the filter. -/
theorem workStates_compiled (value : Json) : ∃ compiled,
    workTranslator.compile (workStates value) workContext = .ok compiled ∧
      ⟨.expression .filter [1] .literal, value⟩ ∈ compiled.statement.parameters :=
  ⟨_, rfl, .tail _ (.tail _ (.head _))⟩

def stateField : FieldLayout :=
  ⟨"state", ⟨"state", isIdentifier_state⟩, .string, false, true, .one, none, none⟩

theorem workStates_stands (value : Json) : StandsFor workTranslator (workStates value).operation
    (.expression .filter [1] .literal) [stateField] value :=
  ⟨_, _, _, rfl, .selection rfl rfl, rfl, rfl, rfl⟩

def tenantShape : Json := .object [("$scope", .string "__tenant")]

/-- A state that is shaped like a marker is replaced by the tenant. -/
theorem workStates_tenant : ∃ compiled,
    workTranslator.compile (workStates tenantShape) workContext = .ok compiled ∧
      ⟨.expression .filter [1] .literal, tenantShape⟩ ∈ compiled.statement.parameters ∧
      StandsFor workTranslator (workStates tenantShape).operation
        (.expression .filter [1] .literal) [stateField] tenantShape ∧
      executionValue ⟨some "acme", []⟩ tenantShape = .ok (.plain (.string "acme")) ∧
      ¬BoundAs [stateField] tenantShape (executionValue ⟨some "acme", []⟩ tenantShape) ∧
      ReadsScope tenantShape := by
  obtain ⟨compiled, accepted, bound⟩ := workStates_compiled tenantShape
  have other : Json.string "acme" ≠ tenantShape := nofun
  refine ⟨compiled, accepted, bound, workStates_stands tenantShape, rfl, ?_, ?_⟩
  · rintro (same | ⟨field, member, same⟩)
    · exact other (DriverValue.plain.inj (Except.ok.inj same))
    · cases List.mem_singleton.mp member
      exact other (DriverValue.plain.inj (Except.ok.inj same))
  · exact (readsScope_iff tenantShape).mpr rfl

end PostgreSQLQueryTranslator

end MeridianPostgreSQL.Query
