import Mathlib.Data.List.Forall2
import Mathlib.Data.List.Nodup
import Mathlib.Data.List.Sort

/-! # Rearrangements

Results that are alike whatever the errors are, over lists in another order, and
lists sorted by a key. -/

namespace MeridianPostgreSQL

universe u v

/-! ## Alike results -/

section Alike

variable {Error Other : Type u} {α β γ δ : Type v}

/-- Both results are accepted and related, or both are refused. -/
inductive Alike (related : α → β → Prop) : Except Error α → Except Other β → Prop
  | ok (left : α) (right : β) (holds : related left right) : Alike related (.ok left) (.ok right)
  | error (left : Error) (right : Other) : Alike related (.error left) (.error right)

variable {related : α → β → Prop}

theorem Alike.refl (result : Except Error α) : Alike Eq result result := by
  cases result with
  | error error => exact .error error error
  | ok value => exact .ok value value rfl

theorem Alike.of_eq {left right : Except Error α} (equal : left = right) :
    Alike Eq left right := equal ▸ .refl left

theorem Alike.mono {other : α → β → Prop} {left : Except Error α} {right : Except Other β}
    (alike : Alike related left right) (implied : ∀ first second, related first second →
      other first second) : Alike other left right := by
  cases alike with
  | ok first second holds => exact .ok first second (implied first second holds)
  | error first second => exact .error first second

/-- What is known of an accepted value. -/
theorem Alike.knowing {left : Except Error α} {right : Except Other β}
    (alike : Alike related left right) {known : α → Prop}
    (accepted : ∀ value, left = .ok value → known value) :
    Alike (fun a b => related a b ∧ known a) left right := by
  cases alike with
  | ok first second holds => exact .ok first second ⟨holds, accepted first rfl⟩
  | error first second => exact .error first second

theorem Alike.symm {left : Except Error α} {right : Except Other α} (alike : Alike Eq left right) :
    Alike Eq right left := by
  cases alike with
  | ok first second same => exact .ok second first same.symm
  | error first second => exact .error second first

theorem Alike.trans {Third : Type u} {other : β → γ → Prop} {left : Except Error α}
    {middle : Except Other β} {right : Except Third γ} (first : Alike related left middle)
    (second : Alike other middle right) :
    Alike (fun a c => ∃ b, related a b ∧ other b c) left right := by
  cases first with
  | ok a b holds =>
      cases second with
      | ok _ c next => exact .ok a c ⟨b, holds, next⟩
  | error a b =>
      cases second with
      | error _ c => exact .error a c

theorem Alike.bind {other : γ → δ → Prop} {left : Except Error α} {right : Except Other β}
    {first : α → Except Error γ} {second : β → Except Other δ} (alike : Alike related left right)
    (next : ∀ a b, related a b → Alike other (first a) (second b)) :
    Alike other (left >>= first) (right >>= second) := by
  cases alike with
  | ok a b holds => exact next a b holds
  | error a b => exact .error a b

/-- The same value goes on. -/
theorem Alike.bind_eq {other : γ → δ → Prop} {left : Except Error α} {right : Except Other α}
    {first : α → Except Error γ} {second : α → Except Other δ} (alike : Alike Eq left right)
    (next : ∀ value, Alike other (first value) (second value)) :
    Alike other (left >>= first) (right >>= second) :=
  alike.bind fun value _ same => same ▸ next value

theorem Alike.ite {p q : Prop} [Decidable p] [Decidable q] (same : p ↔ q)
    {left first : Except Error α} {right second : Except Other β}
    (whenTrue : Alike related left right) (whenFalse : Alike related first second) :
    Alike related (if p then left else first) (if q then right else second) := by
  by_cases holds : p
  · rw [if_pos holds, if_pos (same.mp holds)]
    exact whenTrue
  · rw [if_neg holds, if_neg fun other => holds (same.mpr other)]
    exact whenFalse

theorem Alike.mapError {left : Except Error α} {right : Except Other β}
    (alike : Alike related left right) (first : Error → Error) (second : Other → Other) :
    Alike related (left.mapError first) (right.mapError second) := by
  cases alike with
  | ok a b holds => exact .ok a b holds
  | error a b => exact .error (first a) (second b)

theorem Alike.ok_iff {left : Except Error α} {right : Except Other α} (alike : Alike Eq left right)
    (value : α) : left = .ok value ↔ right = .ok value := by
  cases alike with
  | ok first second same => rw [same, Except.ok.injEq, Except.ok.injEq]
  | error first second => exact ⟨nofun, nofun⟩

end Alike

/-! ## Lists -/

section Lists

variable {Error Other : Type u} {α β γ δ : Type v}

theorem Alike.mapM {related : α → β → Prop} {other : γ → δ → Prop} {f : α → Except Error γ}
    {g : β → Except Other δ} {left : List α} {right : List β}
    (items : List.Forall₂ related left right)
    (each : ∀ a b, related a b → Alike other (f a) (g b)) :
    Alike (List.Forall₂ other) (left.mapM f) (right.mapM g) := by
  induction items with
  | nil => exact .ok [] [] .nil
  | cons holds _ induction =>
      rw [List.mapM_cons, List.mapM_cons]
      refine (each _ _ holds).bind fun a b first => ?_
      exact induction.bind fun as bs rest => .ok _ _ (.cons first rest)

theorem Alike.mapM_eq {related : α → β → Prop} {f : α → Except Error γ} {g : β → Except Other γ}
    {left : List α} {right : List β} (items : List.Forall₂ related left right)
    (each : ∀ a b, related a b → Alike Eq (f a) (g b)) :
    Alike Eq (left.mapM f) (right.mapM g) :=
  (Alike.mapM items each).mono fun _ _ equal => List.forall₂_eq_eq_eq ▸ equal

/-- Items in another order are accepted together, with results in another order. -/
theorem Alike.mapM_perm {f : α → Except Error γ} {left right : List α}
    (permuted : left.Perm right) :
    Alike List.Perm (left.mapM f) (right.mapM f) := by
  induction permuted with
  | nil => exact .ok [] [] .nil
  | cons item _ induction =>
      rw [List.mapM_cons, List.mapM_cons]
      refine Alike.bind_eq (.refl (f item)) fun value => ?_
      exact induction.bind fun _ _ rest => .ok _ _ (rest.cons value)
  | swap first second rest =>
      simp only [List.mapM_cons]
      cases f first with
      | error error =>
          cases f second with
          | error other => exact .error other error
          | ok value => exact .error error error
      | ok one =>
          cases f second with
          | error other => exact .error other other
          | ok two =>
              cases rest.mapM f with
              | error error => exact .error error error
              | ok values => exact .ok _ _ (.swap one two values)
  | trans _ _ first second =>
      exact (first.trans second).mono fun _ _ ⟨_, before, after⟩ => before.trans after

/-- The positions of the items are only for the errors. -/
theorem Alike.mapM_zipIdx {f : α × Nat → Except Error γ} {g : α → Except Other γ}
    (each : ∀ entry, Alike Eq (f entry) (g entry.1)) (items : List α) :
    Alike Eq (items.zipIdx.mapM f) (items.mapM g) := by
  have positions : ∀ (items : List α) (start : Nat),
      List.Forall₂ (fun entry item => entry.1 = item) (items.zipIdx start) items := by
    intro items
    induction items with
    | nil => exact fun _ => .nil
    | cons item rest induction => exact fun start => .cons rfl (induction (start + 1))
  exact Alike.mapM_eq (positions items 0) fun entry _ same => same ▸ each entry

end Lists

/-! ## Sorting by a key -/

section Sorting

variable {Key : Type u} [LinearOrder Key] {α : Type v}

/-- The order of the keys. -/
abbrev keyOrder (key : α → Key) (left right : α) : Prop := key left ≤ key right

instance (key : α → Key) : Std.Total (keyOrder key) := ⟨fun a b => le_total (key a) (key b)⟩

instance (key : α → Key) : IsTrans α (keyOrder key) := ⟨fun _ _ _ => le_trans⟩

/-- Sorted by a key, in a stable way. -/
def sortedBy (key : α → Key) (items : List α) : List α := items.insertionSort (keyOrder key)

theorem sortedBy_perm (key : α → Key) (items : List α) : (sortedBy key items).Perm items :=
  List.perm_insertionSort (keyOrder key) items

/-- The order of the items does not matter, unless two of them share a key. -/
theorem sortedBy_eq {key : α → Key} {left right : List α} (permuted : left.Perm right)
    (distinct : ∀ a ∈ left, ∀ b ∈ left, key a = key b → a = b) :
    sortedBy key left = sortedBy key right := by
  have same : (sortedBy key left).Perm (sortedBy key right) :=
    ((sortedBy_perm key left).trans permuted).trans (sortedBy_perm key right).symm
  refine List.Perm.eq_of_pairwise ?_ (List.pairwise_insertionSort (keyOrder key) left)
    (List.pairwise_insertionSort (keyOrder key) right) same
  intro a b inLeft inRight below above
  have first := (sortedBy_perm key left).mem_iff.mp inLeft
  have second := permuted.mem_iff.mpr ((sortedBy_perm key right).mem_iff.mp inRight)
  exact distinct a first b second (le_antisymm below above)

theorem sortedBy_eq_of_nodup {key : α → Key} {left right : List α} (permuted : left.Perm right)
    (distinct : (left.map key).Nodup) : sortedBy key left = sortedBy key right :=
  sortedBy_eq permuted fun _ first _ second => List.inj_on_of_nodup_map distinct first second

theorem sortedBy_eq_of_injective {key : α → Key} (injective : Function.Injective key)
    {left right : List α} (permuted : left.Perm right) :
    sortedBy key left = sortedBy key right :=
  sortedBy_eq permuted fun _ _ _ _ same => injective same

end Sorting

end MeridianPostgreSQL
