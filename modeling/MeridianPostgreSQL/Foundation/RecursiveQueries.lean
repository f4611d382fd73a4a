import Mathlib.Data.Multiset.Bind
import Mathlib.Data.Multiset.Lattice
import Mathlib.Order.Nat

/-! # Recursive queries

The rows of a recursive query whose parts are put together with `UNION ALL`.
Every round replaces the working rows by those that they lead to, and the
query ends with the first round that has none. A query that appends steps to
sequences evaluates to the sequences that are grown one admitted step at a time. -/

namespace MeridianPostgreSQL.RecursiveQueries

universe u v

/-! ## Rounds -/

section Rounds

variable {Row : Type u} {Source : Type v} {next : Row → Multiset Row}

inductive Evaluates (next : Row → Multiset Row) : Multiset Row → Multiset Row → Prop
  | done : Evaluates next 0 0
  | round {working later : Multiset Row} (some : working ≠ 0)
      (rest : Evaluates next (working.bind next) later) :
      Evaluates next working (working + later)

theorem Evaluates.unique {working left right : Multiset Row}
    (first : Evaluates next working left) (second : Evaluates next working right) :
    left = right := by
  induction first generalizing right with
  | done =>
      cases second with
      | done => rfl
      | round some _ => exact absurd rfl some
  | round some _ induction =>
      cases second with
      | done => exact absurd rfl some
      | round _ rest => rw [induction rest]

/-- A query ends when each row leads to rows of a lower measure only. -/
theorem exists_evaluates (measure : Row → Nat)
    (lower : ∀ row, ∀ following ∈ next row, measure following < measure row)
    (working : Multiset Row) : ∃ rows, Evaluates next working rows := by
  have bounded : ∀ bound (working : Multiset Row), (∀ row ∈ working, measure row < bound) →
      ∃ rows, Evaluates next working rows := by
    intro bound
    induction bound with
    | zero =>
        intro working below
        have none : working = 0 :=
          Multiset.eq_zero_of_forall_notMem fun row member => Nat.not_lt_zero _ (below row member)
        subst none
        exact ⟨0, .done⟩
    | succ bound induction =>
        intro working below
        by_cases none : working = 0
        · subst none
          exact ⟨0, .done⟩
        · have following : ∀ row ∈ working.bind next, measure row < bound := by
            intro row member
            obtain ⟨before, listed, reached⟩ := Multiset.mem_bind.mp member
            have first := below before listed
            have second := lower before row reached
            omega
          obtain ⟨rows, evaluates⟩ := induction _ following
          exact ⟨_, .round none evaluates⟩
  have below : ∀ row ∈ working, measure row < (working.map measure).sup + 1 :=
    fun _ member => Nat.lt_succ_of_le (Multiset.le_sup (Multiset.mem_map_of_mem measure member))
  exact bounded _ working below

/-- A query over the images of rows evaluates to the images. -/
theorem Evaluates.map {children : Source → Multiset Source} {image : Source → Row}
    {kept : Source → Prop} (keeps : ∀ source, kept source → ∀ child ∈ children source, kept child)
    (same : ∀ source, kept source → next (image source) = (children source).map image)
    {working all : Multiset Source} (evaluates : Evaluates children working all)
    (start : ∀ source ∈ working, kept source) :
    Evaluates next (working.map image) (all.map image) := by
  induction evaluates with
  | done => exact .done
  | @round working later some _ induction =>
      have following : ∀ source ∈ working.bind children, kept source := by
        intro source member
        obtain ⟨before, listed, child⟩ := Multiset.mem_bind.mp member
        exact keeps before (start before listed) source child
      have images : (working.bind children).map image = (working.map image).bind next := by
        rw [Multiset.map_bind, Multiset.bind_map]
        exact Multiset.bind_congr fun source member => (same source (start source member)).symm
      rw [Multiset.map_add]
      exact .round (fun none => some (Multiset.map_eq_zero.mp none)) (images ▸ induction following)

end Rounds

/-! ## Growth -/

section Growth

variable {Step : Type u} (steps : List Step) (admits : List Step → Step → Bool)

/-- The sequences that extend one by an admitted step. -/
def extensions (sequence : List Step) : Multiset (List Step) :=
  ((steps.filter (admits sequence)).map fun step => sequence ++ [step] : List (List Step))

inductive Grown : List Step → Prop
  | nil : Grown []
  | concat {sequence : List Step} {step : Step} (grown : Grown sequence) (listed : step ∈ steps)
      (admitted : admits sequence step = true) : Grown (sequence ++ [step])

variable {steps admits}

theorem mem_extensions {sequence other : List Step} :
    other ∈ extensions steps admits sequence ↔
      ∃ step ∈ steps, admits sequence step = true ∧ sequence ++ [step] = other := by
  simp only [extensions, Multiset.mem_coe, List.mem_map, List.mem_filter, and_assoc]

theorem grown_concat {sequence : List Step} {step : Step} :
    Grown steps admits (sequence ++ [step]) ↔
      Grown steps admits sequence ∧ step ∈ steps ∧ admits sequence step = true := by
  constructor
  · intro grown
    generalize equal : sequence ++ [step] = whole at grown
    cases grown with
    | nil => exact absurd equal (by simp)
    | concat grown listed admitted =>
        obtain ⟨rfl, last⟩ := List.append_inj' equal rfl
        cases last
        exact ⟨grown, listed, admitted⟩
  · rintro ⟨grown, listed, admitted⟩
    exact .concat grown listed admitted

/-- The working rows of a round: the grown sequences of one length, once each. -/
structure Level (steps : List Step) (admits : List Step → Step → Bool) (length : Nat)
    (working : Multiset (List Step)) : Prop where
  nodup : working.Nodup
  mem_iff : ∀ sequence, sequence ∈ working ↔ Grown steps admits sequence ∧ sequence.length = length

theorem level_start : Level steps admits 0 {[]} where
  nodup := Multiset.nodup_singleton _
  mem_iff sequence := by
    rw [Multiset.mem_singleton]
    constructor
    · rintro rfl
      exact ⟨.nil, rfl⟩
    · exact fun held => List.length_eq_zero_iff.mp held.2

theorem extensions_disjoint {left right : List Step} (different : left ≠ right) :
    Disjoint (extensions steps admits left) (extensions steps admits right) := by
  rw [Multiset.disjoint_left]
  intro sequence first second
  obtain ⟨_, _, _, ends⟩ := mem_extensions.mp first
  obtain ⟨_, _, _, same⟩ := mem_extensions.mp second
  exact different (List.append_inj' (ends.trans same.symm) rfl).1

theorem extensions_nodup (nodup : steps.Nodup) (sequence : List Step) :
    (extensions steps admits sequence).Nodup := by
  refine Multiset.coe_nodup.mpr ((nodup.filter _).map ?_)
  intro left right equal
  exact (List.cons.inj (List.append_cancel_left equal)).1

theorem Level.next (nodup : steps.Nodup) {length : Nat} {working : Multiset (List Step)}
    (level : Level steps admits length working) :
    Level steps admits (length + 1) (working.bind (extensions steps admits)) where
  nodup := by
    obtain ⟨sequences, rfl⟩ := Quot.exists_rep working
    have different : sequences.Pairwise (· ≠ ·) := Multiset.coe_nodup.mp level.nodup
    exact Multiset.nodup_bind.mpr ⟨fun sequence _ => extensions_nodup nodup sequence,
      sequences, rfl, different.imp extensions_disjoint⟩
  mem_iff sequence := by
    rw [Multiset.mem_bind]
    constructor
    · rintro ⟨before, member, extended⟩
      obtain ⟨step, listed, admitted, rfl⟩ := mem_extensions.mp extended
      obtain ⟨grown, same⟩ := (level.mem_iff before).mp member
      exact ⟨.concat grown listed admitted, by simp [same]⟩
    · rintro ⟨grown, same⟩
      cases grown with
      | nil => exact nomatch same
      | @concat before step grown listed admitted =>
          have shorter : before.length = length := by simpa using same
          exact ⟨before, (level.mem_iff before).mpr ⟨grown, shorter⟩,
            mem_extensions.mpr ⟨step, listed, admitted, rfl⟩⟩

/-- A sequence of some length has grown through every shorter one. -/
theorem exists_shorter {sequence : List Step} (grown : Grown steps admits sequence) {length : Nat}
    (shorter : length ≤ sequence.length) :
    ∃ before, Grown steps admits before ∧ before.length = length := by
  induction grown with
  | nil => exact ⟨[], .nil, (Nat.le_zero.mp shorter).symm⟩
  | @concat before step grown listed admitted induction =>
      by_cases whole : length ≤ before.length
      · exact induction whole
      · have same : (before ++ [step]).length = length := by
          rw [List.length_append, List.length_singleton] at shorter ⊢
          omega
        exact ⟨_, .concat grown listed admitted, same⟩

theorem Level.evaluates (nodup : steps.Nodup) {length : Nat}
    {working all : Multiset (List Step)} (level : Level steps admits length working)
    (evaluates : Evaluates (extensions steps admits) working all) :
    all.Nodup ∧
      ∀ sequence, sequence ∈ all ↔ Grown steps admits sequence ∧ length ≤ sequence.length := by
  induction evaluates generalizing length with
  | done =>
      refine ⟨Multiset.nodup_zero, fun sequence => ?_⟩
      refine iff_of_false (Multiset.notMem_zero _) ?_
      rintro ⟨grown, longer⟩
      obtain ⟨before, held, same⟩ := exists_shorter grown longer
      exact Multiset.notMem_zero _ ((level.mem_iff before).mpr ⟨held, same⟩)
  | @round working later _ _ induction =>
      obtain ⟨laterNodup, laterMem⟩ := induction (level.next nodup)
      constructor
      · refine Multiset.nodup_add.mpr ⟨level.nodup, laterNodup, ?_⟩
        rw [Multiset.disjoint_left]
        intro sequence first second
        have same := ((level.mem_iff sequence).mp first).2
        have longer := ((laterMem sequence).mp second).2
        omega
      · intro sequence
        rw [Multiset.mem_add, level.mem_iff, laterMem, ← and_or_left]
        refine and_congr_right fun _ => ?_
        omega

/-- The query that appends steps evaluates to the grown sequences, once each. -/
theorem evaluates_grown (nodup : steps.Nodup) {all : Multiset (List Step)}
    (evaluates : Evaluates (extensions steps admits) {[]} all) :
    all.Nodup ∧ ∀ sequence, sequence ∈ all ↔ Grown steps admits sequence := by
  have level : Level steps admits 0 {[]} := level_start
  obtain ⟨once, listed⟩ := level.evaluates nodup evaluates
  exact ⟨once, fun sequence => (listed sequence).trans (and_iff_left (Nat.zero_le _))⟩

end Growth

end MeridianPostgreSQL.RecursiveQueries
