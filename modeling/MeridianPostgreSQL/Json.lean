import Mathlib.Data.List.Nodup
import Mathlib.Data.Rat.Defs
import Mathlib.Data.String.Basic

/-! JSON values as the adapter receives and returns them. Integers and floats
stay apart, as they do in Python, and an object keeps the order of its
members. A float is its value, so `-0.0` is not apart from `0.0`. -/

namespace MeridianPostgreSQL

inductive Json where
  | null
  | bool (value : Bool)
  | int (value : Int)
  | float (value : Rat)
  | string (value : String)
  | array (items : List Json)
  | object (members : List (String × Json))

namespace Json

/-! ## Equality -/

mutual

def same : Json → Json → Bool
  | .null, .null => true
  | .bool left, .bool right => left == right
  | .int left, .int right => left == right
  | .float left, .float right => left == right
  | .string left, .string right => left == right
  | .array left, .array right => sameItems left right
  | .object left, .object right => sameMembers left right
  | _, _ => false

def sameItems : List Json → List Json → Bool
  | [], [] => true
  | left :: lefts, right :: rights => same left right && sameItems lefts rights
  | _, _ => false

def sameMembers : List (String × Json) → List (String × Json) → Bool
  | [], [] => true
  | (name, left) :: lefts, (other, right) :: rights =>
      name == other && (same left right && sameMembers lefts rights)
  | _, _ => false

end

mutual

theorem same_iff : ∀ left right : Json, same left right = true ↔ left = right
  | .null, right => by cases right <;> simp [same]
  | .bool left, right => by cases right <;> simp [same]
  | .int left, right => by cases right <;> simp [same]
  | .float left, right => by cases right <;> simp [same]
  | .string left, right => by cases right <;> simp [same]
  | .array left, right => by
      cases right with
      | array right => simpa [same] using sameItems_iff left right
      | _ => simp [same]
  | .object left, right => by
      cases right with
      | object right => simpa [same] using sameMembers_iff left right
      | _ => simp [same]

theorem sameItems_iff : ∀ left right : List Json,
    sameItems left right = true ↔ left = right
  | [], right => by cases right <;> simp [sameItems]
  | left :: lefts, [] => by simp [sameItems]
  | left :: lefts, right :: rights => by
      simp [sameItems, same_iff left right, sameItems_iff lefts rights]

theorem sameMembers_iff : ∀ left right : List (String × Json),
    sameMembers left right = true ↔ left = right
  | [], right => by cases right <;> simp [sameMembers]
  | (name, left) :: lefts, [] => by simp [sameMembers]
  | (name, left) :: lefts, (other, right) :: rights => by
      simp [sameMembers, same_iff left right, sameMembers_iff lefts rights,
        and_assoc]

end

instance : DecidableEq Json := fun left right =>
  decidable_of_iff (same left right = true) (same_iff left right)

example : Json.object [("version", .int 1)] ≠ .object [("version", .float 1)] := by
  decide

/-! ## Members -/

/-- Members of a JSON object. -/
abbrev Object := List (String × Json)

/-- The value of a member, as `dict.get` finds it. -/
def get (members : Object) (name : String) : Option Json :=
  members.lookup name

def names (members : Object) : List String := members.map Prod.fst

theorem mem_of_get {members : Object} {name : String} {value : Json}
    (found : get members name = some value) : (name, value) ∈ members := by
  rcases List.lookup_eq_some_iff.mp found with ⟨before, later, split, _⟩
  rw [split]
  exact List.mem_append_right _ List.mem_cons_self

theorem not_mem_names {members : Object} {name : String} (absent : get members name = none) :
    name ∉ names members := by
  intro listed
  rcases List.mem_map.mp listed with ⟨⟨other, value⟩, member, rfl⟩
  have different := List.lookup_eq_none_iff.mp absent _ member
  simp at different

theorem get_eq_some_iff {members : Object} (distinct : (names members).Nodup)
    {name : String} {value : Json} :
    get members name = some value ↔ (name, value) ∈ members := by
  induction members with
  | nil => simp [get]
  | cons member rest induction =>
      rcases List.nodup_cons.mp distinct with ⟨unlisted, others⟩
      rcases member with ⟨first, held⟩
      rw [get, List.lookup_cons]
      by_cases same : name = first
      · subst same
        have absent : (name, value) ∉ rest := by
          intro member
          exact unlisted (List.mem_map.mpr ⟨_, member, rfl⟩)
        simp [absent, eq_comm]
      · have different : (name == first) = false := by simpa using same
        rw [different]
        simpa [same, get] using induction others

/-- The order of the members does not matter to `get`. -/
theorem get_perm {left right : Object} (permuted : left.Perm right)
    (distinct : (names left).Nodup) (name : String) :
    get left name = get right name := by
  have others : (names right).Nodup := (permuted.map Prod.fst).nodup_iff.mp distinct
  apply Option.ext
  intro value
  rw [get_eq_some_iff distinct, get_eq_some_iff others, permuted.mem_iff]

def sortMembers (members : Object) : Object :=
  members.mergeSort fun left right => left.1 ≤ right.1

theorem get_sortMembers {members : Object} (distinct : (names members).Nodup)
    (name : String) : get (sortMembers members) name = get members name :=
  (get_perm (List.mergeSort_perm members _).symm distinct name).symm

/-! ## Normal forms -/

mutual

/-- Sort the members of every object and rewrite every other value. -/
def normalize (leaf : Json → Json) : Json → Json
  | .array items => .array (normalizeItems leaf items)
  | .object members => .object (sortMembers (normalizeMembers leaf members))
  | value => leaf value

def normalizeItems (leaf : Json → Json) : List Json → List Json
  | [] => []
  | item :: items => normalize leaf item :: normalizeItems leaf items

def normalizeMembers (leaf : Json → Json) :
    List (String × Json) → List (String × Json)
  | [] => []
  | (name, value) :: members =>
      (name, normalize leaf value) :: normalizeMembers leaf members

end

section Normal

variable (leaf : Json → Json)

theorem normalizeItems_eq (items : List Json) :
    normalizeItems leaf items = items.map (normalize leaf) := by
  induction items with
  | nil => simp [normalizeItems]
  | cons item items induction => simp [normalizeItems, induction]

theorem names_normalizeMembers (members : Object) :
    names (normalizeMembers leaf members) = names members := by
  induction members with
  | nil => simp [normalizeMembers]
  | cons member members induction =>
      rcases member with ⟨name, value⟩
      simpa [normalizeMembers, names] using induction

theorem get_normalizeMembers (members : Object) (name : String) :
    get (normalizeMembers leaf members) name =
      (get members name).map (normalize leaf) := by
  induction members with
  | nil => simp [normalizeMembers, get]
  | cons member members induction =>
      rcases member with ⟨first, value⟩
      rw [normalizeMembers, get, get, List.lookup_cons, List.lookup_cons]
      cases name == first with
      | true => rfl
      | false => exact induction

/-- A member of a normal form is the normal form of the member. -/
theorem get_of_normalize {left right : Object}
    (equal : normalize leaf (.object left) = normalize leaf (.object right))
    (leftDistinct : (names left).Nodup) (rightDistinct : (names right).Nodup)
    (name : String) :
    (get left name).map (normalize leaf) = (get right name).map (normalize leaf) := by
  simp only [normalize, Json.object.injEq] at equal
  rw [← get_normalizeMembers, ← get_normalizeMembers, ← get_sortMembers, equal,
    get_sortMembers]
  · rwa [names_normalizeMembers]
  · rwa [names_normalizeMembers]

end Normal

/-- The members sorted, as a canonical JSON text has them. -/
def canonical (value : Json) : Json := value.normalize id

def asNumber : Json → Json
  | .int value => .float value
  | value => value

/-- PostgreSQL compares `jsonb` values by their content: a number by its value
and an object by its members, whatever their order. -/
def jsonb (value : Json) : Json := value.normalize asNumber

def boolAsNumber : Json → Json
  | .bool value => .float (if value then 1 else 0)
  | value => value

/-- Python's `==` compares values by content too, and a bool is a number. -/
def python (value : Json) : Json := value.jsonb.normalize boolAsNumber

theorem normalize_perm (leaf : Json → Json) (members : Object) :
    (sortMembers (normalizeMembers leaf members)).Perm (normalizeMembers leaf members) :=
  List.mergeSort_perm _ _

/-- Members of objects that Python cannot tell apart are so themselves. -/
theorem get_of_python {left right : Object}
    (equal : (Json.object left).python = (Json.object right).python)
    (leftDistinct : (names left).Nodup) (rightDistinct : (names right).Nodup)
    (name : String) : (get left name).map python = (get right name).map python := by
  have sorted : ∀ members : Object, (names members).Nodup →
      (names (sortMembers (normalizeMembers asNumber members))).Nodup := by
    intro members distinct
    rw [names, ((normalize_perm asNumber members).map Prod.fst).nodup_iff, ← names,
      names_normalizeMembers]
    exact distinct
  have shown : ∀ members : Object, (names members).Nodup →
      (get (sortMembers (normalizeMembers asNumber members)) name).map
        (normalize boolAsNumber) = (get members name).map python := by
    intro members distinct
    rw [get_sortMembers, get_normalizeMembers, Option.map_map]
    · rfl
    · rwa [names_normalizeMembers]
  rw [← shown left leftDistinct, ← shown right rightDistinct]
  apply get_of_normalize boolAsNumber _ (sorted left leftDistinct)
    (sorted right rightDistinct)
  simpa only [python, jsonb, normalize] using equal

@[simp] theorem python_string (text : String) :
    (Json.string text).python = .string text := rfl

@[simp] theorem python_array (items : List Json) :
    (Json.array items).python = .array (items.map python) := by
  simp [python, jsonb, normalize, normalizeItems_eq, Function.comp_def]

/-- Python's `==`. -/
def equals (left right : Json) : Bool := left.python = right.python

/-- A `jsonb` column returns what was stored, though it may spell a number or
order the members of an object differently. -/
structure Column where
  load : Json → Json
  load_jsonb : ∀ value, (load value).jsonb = value.jsonb

def Column.unchanged : Column := ⟨id, fun _ => rfl⟩

/-! ## Values -/

/-- Python's truth of a value. -/
def truthy : Json → Bool
  | .null => false
  | .bool value => value
  | .int value => value ≠ 0
  | .float value => value ≠ 0
  | .string value => value ≠ ""
  | .array items => !items.isEmpty
  | .object members => !members.isEmpty

/-- The number a JSON value denotes. -/
def number : Json → Option Rat
  | .int value => some value
  | .float value => some value
  | _ => none

end Json

end MeridianPostgreSQL
