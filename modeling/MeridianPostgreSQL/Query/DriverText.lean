import MeridianPostgreSQL.Query.PlanAlignment

/-! # Text for the driver

The driver scans a statement for percent sequences. It accepts the text when
each of them is a slot. -/

namespace MeridianPostgreSQL.Query

open Settings

variable {Origin Value : Type}

/-! ## The driver's scan -/

/-- The placeholders the driver finds in a text, or none when it rejects it. -/
def placeholders : List Char → Option Nat
  | [] => some 0
  | '%' :: 's' :: rest => (placeholders rest).map (· + 1)
  | '%' :: '%' :: rest => placeholders rest
  | '%' :: _ => none
  | _ :: rest => placeholders rest

theorem placeholders_cons {character : Char} (plain : character ≠ '%') (rest : List Char) :
    placeholders (character :: rest) = placeholders rest := by
  rw [placeholders.eq_def]
  split
  · exact nomatch ‹character :: rest = []›
  all_goals simp_all

theorem placeholders_append {left : List Char} (plain : '%' ∉ left) (right : List Char) :
    placeholders (left ++ right) = placeholders right := by
  induction left with
  | nil => rfl
  | cons character rest induction =>
      rw [List.mem_cons, not_or] at plain
      rw [List.cons_append, placeholders_cons (Ne.symm plain.1), induction plain.2]

/-! ## Clean pieces -/

/-- The piece is a slot, or its text holds no percent sign. -/
def Piece.clean : Piece Origin → Bool
  | .text sql => !sql.toList.contains '%'
  | .name identifier => !identifier.toList.contains '%'
  | .slot _ => true

/-- A text is clean when its characters are. -/
theorem clean_ofList {sql : String} {characters : List Char}
    (same : sql = String.ofList characters) (plain : characters.contains '%' = false) :
    (Piece.text sql : Piece Origin).clean = true := by
  subst same
  simpa [Piece.clean] using plain

def Sql.clean (command : Sql Origin) : Bool := command.all Piece.clean

theorem percent_mem_quoted {identifier : String} :
    '%' ∈ quoted identifier ↔ '%' ∈ identifier.toList := by
  have differs : '%' ≠ '"' := by decide
  constructor
  · intro member
    rcases List.mem_cons.mp member with same | member
    · exact absurd same differs
    · rcases List.mem_append.mp member with inside | last
      · rcases List.mem_flatMap.mp inside with ⟨character, held, written⟩
        split at written
        · simp at written
        · rwa [List.mem_singleton.mp written]
      · exact absurd (List.mem_singleton.mp last) differs
  · intro member
    apply List.mem_cons_of_mem
    apply List.mem_append_left
    exact List.mem_flatMap.mpr ⟨'%', member, by simp⟩

theorem Piece.clean_iff {piece : Piece Origin} :
    piece.clean = true ↔ ((∀ origin, piece ≠ .slot origin) → '%' ∉ piece.render) := by
  cases piece with
  | text sql => simp [Piece.clean, Piece.render]
  | name identifier => simp [Piece.clean, Piece.render, percent_mem_quoted]
  | slot origin => simp [Piece.clean]

/-- The driver finds the slots of a clean command. -/
theorem placeholders_render {command : Sql Origin} (clean : command.clean = true) :
    placeholders command.render = some (slots command).length := by
  induction command with
  | nil => rfl
  | cons piece rest induction =>
      rw [Sql.clean, List.all_cons, Bool.and_eq_true] at clean
      have others := induction clean.2
      unfold Sql.render at others ⊢
      rw [List.flatMap_cons]
      cases piece with
      | text sql =>
          have plain : '%' ∉ sql.toList := by simpa [Piece.clean] using clean.1
          rw [Piece.render, placeholders_append plain, others, slots_text]
      | name identifier =>
          have plain : '%' ∉ quoted identifier := by
            simpa [Piece.clean, percent_mem_quoted] using clean.1
          rw [Piece.render, placeholders_append plain, others, slots_name]
      | slot origin =>
          rw [Piece.render, slots_slot, List.length_cons]
          simp [placeholders, others]

/-- The percent sequences of the text are its slots, and the driver finds one
for each parameter. -/
structure DriverSafe (statement : BoundStatement Origin Value) : Prop where
  onlySlots : ∀ piece ∈ statement.command, (∀ origin, piece ≠ .slot origin) →
    '%' ∉ piece.render
  accepted : placeholders statement.command.render = some statement.parameters.length

theorem not_driverSafe {statement : BoundStatement Origin Value}
    (rejected : placeholders statement.command.render = none) : ¬ DriverSafe statement := by
  intro safe
  have found := safe.accepted
  rw [rejected] at found
  cases found

theorem driverSafe_iff {statement : BoundStatement Origin Value}
    (aligned : Aligned statement) : DriverSafe statement ↔ statement.command.clean = true := by
  constructor
  · intro safe
    exact List.all_eq_true.mpr fun piece listed =>
      Piece.clean_iff.mpr (safe.onlySlots piece listed)
  · intro clean
    refine ⟨fun piece listed => Piece.clean_iff.mp (List.all_eq_true.mp clean piece listed), ?_⟩
    rw [placeholders_render clean, aligned.slots_eq, List.length_map]

/-! ## Clean compositions -/

@[simp] theorem clean_nil : Sql.clean ([] : Sql Origin) = true := rfl

@[simp] theorem clean_cons (piece : Piece Origin) (rest : Sql Origin) :
    Sql.clean (piece :: rest) = (piece.clean && Sql.clean rest) := rfl

@[simp] theorem clean_append (left right : Sql Origin) :
    Sql.clean (left ++ right) = (left.clean && right.clean) := List.all_append

@[simp] theorem clean_flatten (parts : List (Sql Origin)) :
    Sql.clean parts.flatten = parts.all Sql.clean := by
  induction parts with
  | nil => rfl
  | cons part rest induction => rw [List.flatten_cons, clean_append, induction, List.all_cons]

theorem clean_joined {separator : String} (plain : (Piece.text separator : Piece Origin).clean = true)
    (parts : List (Sql Origin)) :
    Sql.clean (joined separator parts) = parts.all Sql.clean := by
  unfold joined
  induction parts with
  | nil => rfl
  | cons first rest induction =>
      cases rest with
      | nil => simp
      | cons second rest =>
          rw [List.intersperse_cons_cons, List.flatten_cons, List.flatten_cons, clean_append,
            clean_append, induction, clean_cons, plain]
          simp

theorem clean_conjunction (parts : List (BoundStatement Origin Value)) :
    Sql.clean (conjunction parts).command = parts.all fun part => part.command.clean := by
  cases parts with
  | nil => rfl
  | cons part rest =>
      have plain : (Piece.text ") AND (" : Piece Origin).clean = true := by rfl
      simp [conjunction, clean_joined plain, Piece.clean, Function.comp_def]

theorem clean_disjunction (parts : List (BoundStatement Origin Value)) :
    Sql.clean (disjunction parts).command = parts.all fun part => part.command.clean := by
  cases parts with
  | nil => rfl
  | cons part rest =>
      have plain : (Piece.text ") OR (" : Piece Origin).clean = true := by rfl
      simp [disjunction, clean_joined plain, Piece.clean, Function.comp_def]

/-! ## Expressions -/

mutual

/-- Nothing the expression is compiled from writes a percent sign: a `modulo`
writes one as its operator, and a `prefix` writes one as its wildcard. A range
without boundaries does not write its operand. -/
def Expression.percentFree : Expression → Bool
  | .unary _ operand => operand.percentFree
  | .boolean _ operands => allPercentFree operands
  | .binary kind left right =>
      (kind ≠ .modulo : Bool) && (left.percentFree && right.percentFree)
  | .hasPrefix _ _ => false
  | .contains left right => left.percentFree && right.percentFree
  | .isNull operand _ => operand.percentFree
  | .membership _ operand values => operand.percentFree && allPercentFree values
  | .timestampRange operand start finish _ _ =>
      (start.isNone && finish.isNone) ||
        (operand.percentFree && (optionalPercentFree start && optionalPercentFree finish))
  | .documentPath document _ => document.percentFree
  | .fullText fields _ => allPercentFree fields
  | .distance left right => left.percentFree && right.percentFree
  | .distanceWithin left right _ => left.percentFree && right.percentFree
  | .aggregate _ operand _ => optionalPercentFree operand
  | _ => true

def allPercentFree : List Expression → Bool
  | [] => true
  | expression :: rest => expression.percentFree && allPercentFree rest

def optionalPercentFree : Option Expression → Bool
  | none => true
  | some expression => expression.percentFree

end

theorem allPercentFree_eq (expressions : List Expression) :
    allPercentFree expressions = expressions.all Expression.percentFree := by
  induction expressions with
  | nil => rfl
  | cons expression rest induction => rw [allPercentFree, induction, List.all_cons]

section Expressions

variable {targets : Targets} {site : Site}

theorem all_eq_of_index {α β : Type} {lefts : List α} {rights : List β} {f : α → Bool}
    {g : β → Bool} (length : lefts.length = rights.length)
    (each : ∀ {index : Nat} {left right}, lefts[index]? = some left → rights[index]? = some right →
      g right = f left) : rights.all g = lefts.all f := by
  induction lefts generalizing rights with
  | nil => rw [List.eq_nil_of_length_eq_zero length.symm]; rfl
  | cons left lefts induction =>
      cases rights with
      | nil => exact nomatch length
      | cons right rights =>
          have first : g right = f left := @each 0 left right rfl rfl
          have others : rights.all g = lefts.all f := by
            apply induction (Nat.succ.inj length)
            intro index left right found held
            exact @each (index + 1) left right found held
          rw [List.all_cons, List.all_cons, first, others]

theorem clean_identifier (identifier : Identifier) :
    (Piece.name identifier.text : Piece Origin).clean = true := by
  simp only [Piece.clean, Bool.not_eq_true', List.contains_eq_mem, decide_eq_false_iff_not]
  intro percent
  exact absurd (identifier.parts percent) (by decide)

@[simp] theorem clean_ident (parts : List String) :
    Sql.clean (ident parts : Sql Origin) =
      parts.all fun part => (Piece.name part : Piece Origin).clean := by
  unfold ident
  induction parts with
  | nil => rfl
  | cons first rest induction =>
      cases rest with
      | nil => rfl
      | cons second rest =>
          have plain : (Piece.text "." : Piece Origin).clean = true := by rfl
          simp only [List.map_cons, List.intersperse_cons_cons, clean_cons, plain,
            Bool.true_and, List.all_cons] at induction ⊢
          rw [induction]

/-- The aliases of the targets are names the translator made. -/
def Targets.Clean (targets : Targets) : Prop :=
  ∀ entry ∈ targets.aliases, (Piece.name entry.2 : Piece Query.Origin).clean = true

theorem lookupKey_mem {α : Type} {entries : List (String × α)} {key : String} {value : α}
    (found : lookupKey entries key = .ok value) : (key, value) ∈ entries := by
  unfold lookupKey at found
  split at found
  · rename_i held present
    cases found
    rcases List.lookup_eq_some_iff.mp present with ⟨before, later, split, _⟩
    rw [split]
    exact List.mem_append_right _ List.mem_cons_self
  · exact nomatch found

theorem field_clean {targets : Targets} (clean : targets.Clean) {resource : Option String}
    {name : String} {found : String × FieldLayout}
    (named : targets.field resource name = .ok found) :
    Sql.clean (ident [found.1, found.2.column.text] : Sql Query.Origin) = true := by
  unfold Targets.field at named
  rcases bind_eq_ok named with ⟨canonical, _, named⟩
  rcases bind_eq_ok named with ⟨layout, _, named⟩
  split at named
  · exact nomatch named
  · rename_i field _
    rcases bind_eq_ok named with ⟨tableAlias, aliasOk, named⟩
    cases named
    have aliasClean := clean _ (lookupKey_mem aliasOk)
    simp [clean_identifier, aliasClean]

theorem rangeStatement_clean (operand : QueryStatement) (start finish : Option QueryStatement)
    (includeStart includeEnd : Bool) :
    Sql.clean (rangeStatement operand start finish includeStart includeEnd).command =
      ((start.isNone && finish.isNone) || (operand.command.clean &&
        (start.all (fun part => part.command.clean) &&
          finish.all fun part => part.command.clean))) := by
  have boundary : ∀ {operator : String} {side : QueryStatement},
      (Piece.text operator : Piece Query.Origin).clean = true →
      Sql.clean (boundaryStatement operator operand side).command =
        (operand.command.clean && side.command.clean) := by
    intro operator side plain
    simp [boundaryStatement, plain]
  have from_start : (Piece.text (if includeStart then " >= " else " > ") :
      Piece Query.Origin).clean = true := by cases includeStart <;> rfl
  have to_finish : (Piece.text (if includeEnd then " <= " else " < ") :
      Piece Query.Origin).clean = true := by cases includeEnd <;> rfl
  rw [rangeStatement, clean_conjunction, List.all_append]
  cases start with
  | none =>
      cases finish with
      | none => rfl
      | some finish => simp [boundary to_finish]
  | some start =>
      cases finish with
      | none => simp [boundary from_start]
      | some finish =>
          simp only [Option.map_some, Option.toList_some, List.all_cons, List.all_nil,
            boundary from_start, boundary to_finish]
          cases operand.command.clean <;> simp

/-- The text of a compiled expression is clean when the expression writes no
percent sign, and only then. -/
theorem Compiles.clean_eq (aliases : targets.Clean) {path : List Nat} {expression : Expression}
    {statement : QueryStatement} (compiles : Compiles targets site path expression statement) :
    statement.command.clean = expression.percentFree := by
  induction compiles with
  | field named => exact field_clean aliases named
  | literal => rfl
  | point => rfl
  | @unary path kind operand statement operand_compiles induction =>
      cases kind <;> simp [unaryStatement, Expression.percentFree, Piece.clean, induction]
  | @boolean path kind operands statements length each induction =>
      have operandsClean := all_eq_of_index length induction
      rw [Expression.percentFree, allPercentFree_eq, ← operandsClean]
      cases kind with
      | and => exact clean_conjunction statements
      | or => exact clean_disjunction statements
  | @binary path kind leftValue rightValue left right leftAdapted rightAdapted left_compiles
      right_compiles left_adapts right_adapts leftClean rightClean =>
      rw [Expression.percentFree, ← leftClean, ← rightClean, ← left_adapts.command,
        ← right_adapts.command]
      cases kind <;> simp [binaryStatement, BinaryKind.operator, Piece.clean]
  | hasPrefix => simp [prefixStatement, Expression.percentFree, Piece.clean]
  | containsJson leftField json left_compiles right_compiles right_adapts leftClean
      rightClean =>
      rw [Expression.percentFree, ← leftClean, ← rightClean, ← right_adapts.command]
      simp [containsStatement, Piece.clean]
  | containsText leftField left_compiles right_compiles leftClean rightClean =>
      rw [Expression.percentFree, ← leftClean, ← rightClean]
      simp [positionStatement, Piece.clean, Bool.and_comm]
  | @isNull path operand expected statement operand_compiles induction =>
      cases expected <;> simp [isNullStatement, Expression.percentFree, Piece.clean, induction]
  | @membership path negated operand values statement items adapted operand_compiles nonempty
      length each adapts operandClean induction =>
      have itemsClean : (adapted.all fun part => part.command.clean) =
          values.all Expression.percentFree := by
        apply all_eq_of_index (length.trans adapts.length_eq)
        intro index value statement found held
        rcases adapts_at adapts held with ⟨before, listed, changed⟩
        rw [changed.command]
        exact induction found listed
      have plain : (Piece.text ", " : Piece Query.Origin).clean = true := by rfl
      rw [Expression.percentFree, allPercentFree_eq, ← operandClean, ← itemsClean]
      cases negated <;>
        simp [membershipStatement, clean_joined plain, Piece.clean, Function.comp_def]
  | @timestampRange path operand start finish includeStart includeEnd statement startStatement
      finishStatement operand_compiles start_same start_compiles finish_same finish_compiles
      operandClean startClean finishClean =>
      have each : ∀ {expression : Option Expression} {boundary : Option QueryStatement},
          expression.isSome = boundary.isSome →
          (∀ {given written}, expression = some given → boundary = some written →
            written.command.clean = given.percentFree) →
          expression.isNone = boundary.isNone ∧
            optionalPercentFree expression = boundary.all fun part => part.command.clean := by
        intro expression boundary same clean
        cases expression with
        | none =>
            cases boundary with
            | none => exact ⟨rfl, rfl⟩
            | some written => cases same
        | some given =>
            cases boundary with
            | none => cases same
            | some written => exact ⟨rfl, (clean rfl rfl).symm⟩
      have starts := each start_same startClean
      have finishes := each finish_same finishClean
      rw [rangeStatement_clean, Expression.percentFree, operandClean, starts.1, starts.2,
        finishes.1, finishes.2]
  | documentPath document_compiles induction =>
      simp [documentPathStatement, Expression.percentFree, Piece.clean, slot, induction]
  | @fullText path fields query statements nonempty length each induction =>
      have fieldsClean := all_eq_of_index length induction
      have plain : (Piece.text ", " : Piece Query.Origin).clean = true := by rfl
      rw [Expression.percentFree, allPercentFree_eq, ← fieldsClean]
      simp [fullTextStatement, clean_joined plain, Piece.clean, slot, Function.comp_def]
  | distance left_compiles right_compiles leftClean rightClean =>
      simp [distanceStatement, Expression.percentFree, Piece.clean, leftClean, rightClean]
  | distanceWithin left_compiles right_compiles leftClean rightClean =>
      simp [distanceWithinStatement, Expression.percentFree, Piece.clean, slot, leftClean,
        rightClean]
  | count => rfl
  | @aggregate path function operand distinct statement known operand_compiles induction =>
      rw [Expression.percentFree, optionalPercentFree, ← induction]
      cases function <;> cases distinct <;>
        simp [aggregateStatement, AggregateFunction.call, Piece.clean]

end Expressions

end MeridianPostgreSQL.Query
