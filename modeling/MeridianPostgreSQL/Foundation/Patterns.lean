import Mathlib.Data.List.Infix

/-! # Patterns

Patterns of letters and wildcards over any alphabet, written with an escape
letter, and the replacement of one text in another. A text that is escaped
before a wildcard is appended matches the texts that begin with it. -/

namespace MeridianPostgreSQL.Patterns

universe u

variable {α : Type u} [DecidableEq α]

/-! ## Matching -/

inductive Element (α : Type u) where
  | exactly (letter : α)
  | one
  | any
deriving DecidableEq

/-- The text matches the elements. -/
def admits : List (Element α) → List α → Bool
  | [], text => text.isEmpty
  | .exactly _ :: _, [] => false
  | .exactly letter :: rest, first :: text => letter = first && admits rest text
  | .one :: _, [] => false
  | .one :: rest, _ :: text => admits rest text
  | .any :: rest, text => text.tails.any fun later => admits rest later

/-- Letters before the wildcard for any text match what begins with them. -/
theorem admits_begins (letters text : List α) :
    admits (letters.map .exactly ++ [.any]) text = true ↔ letters <+: text := by
  induction letters generalizing text with
  | nil =>
      have last : text.tails.any (fun later => admits [] later) = true :=
        List.any_eq_true.mpr ⟨[], (List.mem_tails [] text).mpr text.nil_suffix, rfl⟩
      exact iff_of_true last text.nil_prefix
  | cons letter letters induction =>
      cases text with
      | nil => simp [admits]
      | cons first text => simp [admits, induction]

/-! ## Writing -/

/-- The letters that stand for elements. -/
structure Wildcards (α : Type u) where
  any : α
  one : α
  distinct : any ≠ one

variable (wildcards : Wildcards α)

/-- The elements that a pattern is written for, after an escape letter or not.
The letter after an escape letter stands for itself. -/
def readFrom (escape : Option α) : Bool → List α → Option (List (Element α))
  | escaping, [] => if escaping then none else some []
  | true, letter :: rest => (readFrom escape false rest).map (.exactly letter :: ·)
  | false, letter :: rest =>
      if escape = some letter then readFrom escape true rest
      else if letter = wildcards.any then (readFrom escape false rest).map (.any :: ·)
      else if letter = wildcards.one then (readFrom escape false rest).map (.one :: ·)
      else (readFrom escape false rest).map (.exactly letter :: ·)

def read (escape : Option α) (pattern : List α) : Option (List (Element α)) :=
  readFrom wildcards escape false pattern

/-- Every letter that does not stand for itself is escaped. -/
def escaped (escape : α) (letters : List α) : List α :=
  letters.flatMap fun letter =>
    if letter = escape ∨ letter = wildcards.any ∨ letter = wildcards.one then [escape, letter]
    else [letter]

theorem read_escaped {escape : α} (any : wildcards.any ≠ escape) (letters : List α) :
    read wildcards (some escape) (escaped wildcards escape letters ++ [wildcards.any]) =
      some (letters.map .exactly ++ [.any]) := by
  unfold read escaped
  induction letters with
  | nil => simp [readFrom, any.symm]
  | cons letter letters induction =>
      rw [List.flatMap_cons]
      split
      · simp [readFrom, induction]
      · rename_i plain
        simp only [not_or] at plain
        simp [readFrom, Ne.symm plain.1, plain.2.1, plain.2.2, induction]

/-! ## Replacing -/

/-- Each occurrence of a text is replaced, from the left, after the letters of
the last occurrence have been passed over. -/
def replaceFrom (search replacement : List α) : Nat → List α → List α
  | _, [] => []
  | passed + 1, _ :: rest => replaceFrom search replacement passed rest
  | 0, letter :: rest =>
      if search ≠ [] ∧ search <+: letter :: rest then
        replacement ++ replaceFrom search replacement (search.length - 1) rest
      else letter :: replaceFrom search replacement 0 rest

def replace (search replacement text : List α) : List α :=
  replaceFrom search replacement 0 text

theorem replace_letter (letter : α) (replacement text : List α) :
    replace [letter] replacement text =
      text.flatMap fun other => if other = letter then replacement else [other] := by
  unfold replace
  induction text with
  | nil => rfl
  | cons first text induction =>
      rw [replaceFrom, List.flatMap_cons]
      by_cases same : first = letter
      · simp [same, induction]
      · simp [same, Ne.symm same, induction]

/-- Letters before the first one of a text are passed over. -/
theorem replace_append {letter : α} {search replacement front : List α} (absent : letter ∉ front)
    (rest : List α) : replace (letter :: search) replacement (front ++ rest) =
      front ++ replace (letter :: search) replacement rest := by
  unfold replace
  induction front with
  | nil => rfl
  | cons first front induction =>
      obtain ⟨differs, others⟩ := not_or.mp (mt List.mem_cons.mpr absent)
      rw [List.cons_append, replaceFrom, if_neg, induction others, List.cons_append]
      rintro ⟨_, begins⟩
      exact differs (List.cons_prefix_cons.mp begins).1

theorem replace_absent {letter : α} {search replacement text : List α} (absent : letter ∉ text) :
    replace (letter :: search) replacement text = text := by
  have whole := @replace_append α _ letter search replacement text absent []
  rwa [List.append_nil, show replace (letter :: search) replacement [] = [] from rfl,
    List.append_nil] at whole

theorem replaceFrom_passed (search replacement passed rest : List α) :
    replaceFrom search replacement passed.length (passed ++ rest) =
      replace search replacement rest := by
  induction passed with
  | nil => rfl
  | cons letter passed induction => exact induction

/-- An occurrence at the beginning is replaced. -/
theorem replace_occurrence {search : List α} (nonempty : search ≠ [])
    (replacement rest : List α) : replace search replacement (search ++ rest) =
      replacement ++ replace search replacement rest := by
  obtain ⟨letter, letters, rfl⟩ := List.exists_cons_of_ne_nil nonempty
  have begins : letter :: letters ≠ [] ∧ letter :: letters <+: letter :: (letters ++ rest) :=
    ⟨nonempty, List.prefix_append _ rest⟩
  rw [replace, List.cons_append, replaceFrom, if_pos begins]
  exact congrArg (replacement ++ ·) (replaceFrom_passed _ replacement letters rest)

/-- Letters at which no occurrence begins are passed over. -/
theorem replace_passes {search replacement front rest : List α}
    (absent : ∀ before after, front = before ++ after → after ≠ [] →
      ¬ search <+: after ++ rest) :
    replace search replacement (front ++ rest) = front ++ replace search replacement rest := by
  induction front with
  | nil => rfl
  | cons letter front induction =>
      have later := induction fun before after split =>
        absent (letter :: before) after (congrArg (letter :: ·) split)
      have first := absent [] (letter :: front) rfl (List.cons_ne_nil letter front)
      rw [replace, List.cons_append, replaceFrom, if_neg fun begins => first begins.2]
      exact congrArg (letter :: ·) later

/-- A text of parts is replaced part by part, if each is whatever follows it. -/
theorem replace_flatMap {β : Type u} {search replacement : List α} {part result : β → List α}
    (each : ∀ item rest, replace search replacement (part item ++ rest) =
      result item ++ replace search replacement rest) (items : List β) :
    replace search replacement (items.flatMap part) = items.flatMap result := by
  induction items with
  | nil => rfl
  | cons item items induction =>
      rw [List.flatMap_cons, each, induction, List.flatMap_cons]

/-- Replacing the escape letter first and the wildcards after it escapes a text. -/
theorem replace_escaped {escape : α} (any : wildcards.any ≠ escape)
    (one : wildcards.one ≠ escape) (text : List α) :
    replace [wildcards.one] [escape, wildcards.one]
        (replace [wildcards.any] [escape, wildcards.any]
          (replace [escape] [escape, escape] text)) = escaped wildcards escape text := by
  simp only [replace_letter, escaped, List.flatMap_assoc]
  congr 1
  funext letter
  have others := wildcards.distinct
  by_cases first : letter = escape
  · simp [first, any.symm, one.symm]
  · by_cases second : letter = wildcards.any
    · simp [second, any, others, one.symm]
    · by_cases third : letter = wildcards.one
      · simp [third, one, others.symm]
      · simp [first, second, third]

end MeridianPostgreSQL.Patterns
