import Mathlib.Data.List.Basic

/-! # Owned rows

A table of rows that belong to owners, and operations that are confined to one
of them: what each answers and leaves to its owner depends on the owner's rows
only. Over any run the operations of the other owners can then be left out. -/

namespace MeridianPostgreSQL.OwnedRows

variable {Row Owner Reply : Type} [DecidableEq Owner] (owner : Row → Owner)

def mine (own : Owner) (rows : List Row) : List Row := rows.filter fun row => owner row = own

/-- What an operation answers, and the rows that it leaves. -/
abbrev Operation (Row Reply : Type) := List Row → Reply × List Row

/-- On valid tables, an operation neither sees nor changes rows of other owners. -/
structure Confined (valid : List Row → Prop) (own : Owner) (operate : Operation Row Reply) :
    Prop where
  keeps : ∀ {rows}, valid rows → valid (operate rows).2
  answers : ∀ {rows}, valid rows → (operate rows).1 = (operate (mine owner own rows)).1
  changes : ∀ {rows}, valid rows →
    mine owner own (operate rows).2 = (operate (mine owner own rows)).2
  others : ∀ {rows}, valid rows → ∀ other, other ≠ own →
    mine owner other (operate rows).2 = mine owner other rows

/-- An operation on behalf of an owner. -/
structure Issued (Row Owner Reply : Type) where
  own : Owner
  operate : Operation Row Reply

/-- The answers of a run, each with the owner it is for, and the rows that are left. -/
def run : List Row → List (Issued Row Owner Reply) → List (Owner × Reply) × List Row
  | rows, [] => ([], rows)
  | rows, issued :: rest =>
      let answered := issued.operate rows
      let later := run answered.2 rest
      ((issued.own, answered.1) :: later.1, later.2)

variable {owner}

/-! ## Rows of one owner -/

section Rows

variable {own other : Owner} {rows : List Row}

theorem mem_mine {row : Row} : row ∈ mine owner own rows ↔ row ∈ rows ∧ owner row = own := by
  simp [mine]

theorem mine_append (before after : List Row) :
    mine owner own (before ++ after) = mine owner own before ++ mine owner own after :=
  List.filter_append _ _

/-- A change of rows that keeps their owners. -/
theorem mine_map {change : Row → Row} (kept : ∀ row ∈ rows, owner (change row) = owner row) :
    mine owner own (rows.map change) = (mine owner own rows).map change := by
  induction rows with
  | nil => rfl
  | cons row rest induction =>
      have here := kept row List.mem_cons_self
      have later := induction fun later listed => kept later (List.mem_cons_of_mem _ listed)
      unfold mine at later ⊢
      rw [List.map_cons, List.filter_cons, List.filter_cons, here, later]
      split <;> rfl

/-- A change of rows of another owner. -/
theorem mine_map_other {change : Row → Row}
    (kept : ∀ row ∈ rows, owner (change row) = owner row)
    (same : ∀ row ∈ rows, owner row = own → change row = row) :
    mine owner own (rows.map change) = mine owner own rows := by
  rw [mine_map kept]
  have each : ∀ row ∈ mine owner own rows, change row = id row := by
    intro row listed
    obtain ⟨inside, owned⟩ := mem_mine.mp listed
    exact same row inside owned
  rw [List.map_congr_left each, List.map_id]

/-- A test that only rows of one owner pass finds them among the owner's. -/
theorem filter_mine {test : Row → Bool} (owned : ∀ row ∈ rows, test row = true → owner row = own) :
    (mine owner own rows).filter test = rows.filter test := by
  rw [mine, List.filter_filter]
  apply List.filter_congr
  intro row listed
  cases passes : test row with
  | false => rfl
  | true => simp [owned row listed passes]

theorem mine_filter {test : Row → Bool} :
    mine owner own (rows.filter test) = (mine owner own rows).filter test := by
  simp only [mine, List.filter_filter, Bool.and_comm]

theorem find_mine {test : Row → Bool} (owned : ∀ row ∈ rows, test row = true → owner row = own) :
    (mine owner own rows).find? test = rows.find? test := by
  rw [← List.head?_filter, ← List.head?_filter, filter_mine owned]

theorem any_mine {test : Row → Bool} (owned : ∀ row ∈ rows, test row = true → owner row = own) :
    (mine owner own rows).any test = rows.any test := by
  rw [Bool.eq_iff_iff, List.any_eq_true, List.any_eq_true]
  constructor
  · rintro ⟨row, listed, passes⟩
    exact ⟨row, (mem_mine.mp listed).1, passes⟩
  · rintro ⟨row, listed, passes⟩
    exact ⟨row, mem_mine.mpr ⟨listed, owned row listed passes⟩, passes⟩

end Rows

/-! ## Relations between rows -/

/-- What holds of each owner's rows holds of all, when rows of different owners
are always apart. -/
theorem pairwise_iff_mine {apart : Row → Row → Prop} {rows : List Row}
    (different : ∀ left right, owner left ≠ owner right → apart left right) :
    rows.Pairwise apart ↔ ∀ own, (mine owner own rows).Pairwise apart := by
  constructor
  · intro whole own
    exact whole.sublist List.filter_sublist
  · intro each
    induction rows with
    | nil => exact .nil
    | cons row rest induction =>
        refine .cons ?_ (induction fun own => ?_)
        · intro other listed
          by_cases same : owner other = owner row
          · have here := each (owner row)
            unfold mine at here
            rw [List.filter_cons_of_pos (by simp)] at here
            exact List.rel_of_pairwise_cons here (mem_mine.mpr ⟨listed, same⟩)
          · exact different row other fun equal => same equal.symm
        · exact (each own).sublist ((List.sublist_cons_self row rest).filter _)

/-! ## Runs -/

section Runs

variable {valid : List Row → Prop} {own : Owner} {rows : List Row}
  {events : List (Issued Row Owner Reply)}

def issuedBy (own : Owner) (events : List (Issued Row Owner Reply)) :
    List (Issued Row Owner Reply) := events.filter fun issued => issued.own = own

def answersTo (own : Owner) (answers : List (Owner × Reply)) : List (Owner × Reply) :=
  answers.filter fun answer => answer.1 = own

/-- Each owner sees, and is left with, what its own operations do on its own
rows. -/
theorem noninterference
    (confined : ∀ issued ∈ events, Confined owner valid issued.own issued.operate)
    (start : valid rows) :
    answersTo own (run rows events).1 = (run (mine owner own rows) (issuedBy own events)).1 ∧
      mine owner own (run rows events).2 =
        (run (mine owner own rows) (issuedBy own events)).2 := by
  induction events generalizing rows with
  | nil => exact ⟨rfl, rfl⟩
  | cons issued rest induction =>
      have here := confined issued List.mem_cons_self
      have later := induction (fun other listed =>
        confined other (List.mem_cons_of_mem _ listed)) (here.keeps start)
      unfold issuedBy answersTo at later ⊢
      by_cases same : issued.own = own
      · subst same
        rw [List.filter_cons_of_pos (by simp), run, run, ← here.changes start,
          ← here.answers start]
        dsimp only
        rw [List.filter_cons_of_pos (by simp), later.1, later.2]
        exact ⟨rfl, rfl⟩
      · rw [List.filter_cons_of_neg (by simpa using same), run]
        dsimp only
        rw [List.filter_cons_of_neg (by simpa using same), later.1, later.2,
          here.others start own fun equal => same equal.symm]
        exact ⟨rfl, rfl⟩

end Runs

end MeridianPostgreSQL.OwnedRows
