import Mathlib.Data.List.Basic

/-! # Statements with bound parameters

SQL text is composed of fragments while the parameters are collected beside
it. A slot says which part of the request it stands for; the text does not. -/

namespace MeridianPostgreSQL.Query

/-- A piece of composed SQL: text of the program, a quoted name, or a slot. -/
inductive Piece (Origin : Type) where
  | text (sql : String)
  | name (identifier : String)
  | slot (origin : Origin)

abbrev Sql (Origin : Type) := List (Piece Origin)

/-- A bound value and the part of the request it comes from. -/
structure Parameter (Origin Value : Type) where
  origin : Origin
  value : Value

structure BoundStatement (Origin Value : Type) where
  command : Sql Origin
  parameters : List (Parameter Origin Value)

variable {Origin Value : Type}

/-! ## Composition -/

/-- `ident` -/
def ident (parts : List String) : Sql Origin :=
  (parts.map Piece.name).intersperse (.text ".")

/-- `sql.SQL(separator).join(parts)` -/
def joined (separator : String) (parts : List (Sql Origin)) : Sql Origin :=
  (parts.intersperse [.text separator]).flatten

def allParameters (parts : List (BoundStatement Origin Value)) :
    List (Parameter Origin Value) :=
  parts.flatMap BoundStatement.parameters

/-- `conjunction` -/
def conjunction (parts : List (BoundStatement Origin Value)) :
    BoundStatement Origin Value :=
  match parts with
  | [] => ⟨[.text "TRUE"], []⟩
  | _ => ⟨[Piece.text "("] ++ joined ") AND (" (parts.map BoundStatement.command) ++
    [Piece.text ")"],
      allParameters parts⟩

/-- `disjunction` -/
def disjunction (parts : List (BoundStatement Origin Value)) :
    BoundStatement Origin Value :=
  match parts with
  | [] => ⟨[.text "FALSE"], []⟩
  | _ => ⟨[Piece.text "("] ++ joined ") OR (" (parts.map BoundStatement.command) ++
    [Piece.text ")"],
      allParameters parts⟩

/-! ## Text -/

/-- A name is quoted, and its quotes are doubled. -/
def quoted (identifier : String) : List Char :=
  '"' :: (identifier.toList.flatMap fun character =>
    if character = '"' then ['"', '"'] else [character]) ++ ['"']

def Piece.render : Piece Origin → List Char
  | .text sql => sql.toList
  | .name identifier => quoted identifier
  | .slot _ => ['%', 's']

/-- `as_string` -/
def Sql.render (command : Sql Origin) : List Char := command.flatMap Piece.render

/-! ## Pieces of a composition -/

theorem mem_joined {separator : String} {parts : List (Sql Origin)} {piece : Piece Origin}
    (member : piece ∈ joined separator parts) :
    piece = .text separator ∨ ∃ part ∈ parts, piece ∈ part := by
  unfold joined at member
  rcases List.mem_flatten.mp member with ⟨part, listed, held⟩
  induction parts with
  | nil => simp at listed
  | cons first rest induction =>
      cases rest with
      | nil =>
          rw [List.intersperse_singleton, List.mem_singleton] at listed
          exact .inr ⟨first, List.mem_singleton.mpr rfl, listed ▸ held⟩
      | cons second rest =>
          rw [List.intersperse_cons_cons, List.mem_cons, List.mem_cons] at listed
          rcases listed with rfl | rfl | listed
          · exact .inr ⟨part, List.mem_cons_self, held⟩
          · exact .inl (List.mem_singleton.mp held)
          · rcases induction (List.mem_flatten.mpr ⟨part, listed, held⟩) listed with
              same | ⟨other, present, there⟩
            · exact .inl same
            · exact .inr ⟨other, List.mem_cons_of_mem first present, there⟩

/-! ## Slots -/

def Piece.origin : Piece Origin → Option Origin
  | .slot origin => some origin
  | _ => none

/-- The slots of a command, from left to right. -/
def slots (command : Sql Origin) : List Origin := command.filterMap Piece.origin

@[simp] theorem slots_nil : slots ([] : Sql Origin) = [] := rfl

@[simp] theorem slots_text (sql : String) (rest : Sql Origin) :
    slots (.text sql :: rest) = slots rest := rfl

@[simp] theorem slots_name (identifier : String) (rest : Sql Origin) :
    slots (.name identifier :: rest) = slots rest := rfl

@[simp] theorem slots_slot (origin : Origin) (rest : Sql Origin) :
    slots (.slot origin :: rest) = origin :: slots rest := rfl

@[simp] theorem slots_append (left right : Sql Origin) :
    slots (left ++ right) = slots left ++ slots right := List.filterMap_append

@[simp] theorem slots_flatten (parts : List (Sql Origin)) :
    slots parts.flatten = parts.flatMap slots := by
  induction parts with
  | nil => rfl
  | cons part rest induction =>
      rw [List.flatten_cons, slots_append, induction, List.flatMap_cons]

@[simp] theorem slots_joined (separator : String) (parts : List (Sql Origin)) :
    slots (joined separator parts) = parts.flatMap slots := by
  unfold joined
  induction parts with
  | nil => rfl
  | cons first rest induction =>
      cases rest with
      | nil => simp
      | cons second rest =>
          rw [List.intersperse_cons_cons, List.flatten_cons, List.flatten_cons, slots_append,
            slots_append, induction]
          rfl

@[simp] theorem slots_ident (parts : List String) : slots (ident parts : Sql Origin) = [] := by
  unfold ident
  induction parts with
  | nil => rfl
  | cons first rest induction =>
      cases rest with
      | nil => rfl
      | cons second rest =>
          simp only [List.map_cons, List.intersperse_cons_cons, slots_name, slots_text] at induction ⊢
          exact induction

/-- The slots of a statement carry its parameters in order. -/
def Aligned (statement : BoundStatement Origin Value) : Prop :=
  slots statement.command = statement.parameters.map Parameter.origin

@[simp] theorem aligned_mk (command : Sql Origin) (parameters : List (Parameter Origin Value)) :
    Aligned ⟨command, parameters⟩ ↔ slots command = parameters.map Parameter.origin := Iff.rfl

theorem Aligned.slots_eq {statement : BoundStatement Origin Value}
    (aligned : Aligned statement) :
    slots statement.command = statement.parameters.map Parameter.origin := aligned

/-- A statement whose slots carry, in order, values that a request supplies. -/
structure Supplied (supplies : Origin → Value → Prop) (statement : BoundStatement Origin Value) :
    Prop where
  aligned : Aligned statement
  values : ∀ parameter ∈ statement.parameters, supplies parameter.origin parameter.value

section Supplied

variable {supplies : Origin → Value → Prop} {parts : List (BoundStatement Origin Value)}

theorem slots_commands (each : ∀ part ∈ parts, Supplied supplies part) :
    (parts.map BoundStatement.command).flatMap slots =
      (allParameters parts).map Parameter.origin := by
  induction parts with
  | nil => rfl
  | cons part rest induction =>
      have first := (each part List.mem_cons_self).aligned.slots_eq
      have others := induction fun other listed => each other (List.mem_cons_of_mem _ listed)
      simp only [allParameters] at others
      simp [allParameters, first, others]

theorem supplied_all (each : ∀ part ∈ parts, Supplied supplies part) :
    ∀ parameter ∈ allParameters parts, supplies parameter.origin parameter.value := by
  intro parameter member
  rcases List.mem_flatMap.mp member with ⟨part, listed, inside⟩
  exact (each part listed).values parameter inside

theorem Supplied.conjunction (each : ∀ part ∈ parts, Supplied supplies part) :
    Supplied supplies (conjunction parts) := by
  cases parts with
  | nil => exact ⟨rfl, by simp [Query.conjunction]⟩
  | cons part rest =>
      exact ⟨by simpa [Query.conjunction] using slots_commands each, supplied_all each⟩

theorem Supplied.disjunction (each : ∀ part ∈ parts, Supplied supplies part) :
    Supplied supplies (disjunction parts) := by
  cases parts with
  | nil => exact ⟨rfl, by simp [Query.disjunction]⟩
  | cons part rest =>
      exact ⟨by simpa [Query.disjunction] using slots_commands each, supplied_all each⟩

theorem Supplied.pair {left right : BoundStatement Origin Value}
    (left_supplied : Supplied supplies left) (right_supplied : Supplied supplies right) :
    ∀ part ∈ [left, right], Supplied supplies part := by
  intro part listed
  rcases List.mem_pair.mp listed with rfl | rfl
  · exact left_supplied
  · exact right_supplied

theorem Supplied.imp {other : Origin → Value → Prop}
    {statement : BoundStatement Origin Value} (supplied : Supplied supplies statement)
    (weaker : ∀ origin value, supplies origin value → other origin value) :
    Supplied other statement :=
  ⟨supplied.aligned, fun parameter member =>
    weaker _ _ (supplied.values parameter member)⟩

end Supplied

end MeridianPostgreSQL.Query
