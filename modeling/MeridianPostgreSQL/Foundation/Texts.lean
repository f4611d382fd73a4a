import Mathlib.Data.String.Basic
import MeridianPostgreSQL.Foundation.Patterns

/-! # Texts

Replacing and splitting strings, in terms of their letters. -/

namespace MeridianPostgreSQL.Texts

/-! ## Replacing -/

section Replacing

open String.Slice.Pattern.Model String.Slice.Pattern

/-- The text that is left from a position on. -/
theorem letters_from {text : String.Slice} {position : text.Pos} {before after : String}
    (splits : position.Splits before after) : (text.sliceFrom position).copy = after :=
  position.splits.eq_right splits

/-- What a search step adds to a text in which a pattern is replaced. -/
def replacedStep (replacement : String) {text : String.Slice} (found : String) :
    SearchStep text → String
  | .matched .. => found ++ replacement.toSlice
  | .rejected start stop => found ++ text.slice! start stop

/-- No occurrence begins in what a search passes over. -/
theorem search_passes {pattern : String} {text : String.Slice} {start stop : text.Pos}
    (absent : ∀ position, start ≤ position → position < stop → ¬ MatchesAt pattern position)
    {passed : String}
    (front : (text.sliceTo stop).copy = (text.sliceTo start).copy ++ passed)
    (split : (text.sliceFrom start).copy = passed ++ (text.sliceFrom stop).copy)
    {before after : List Char} (parts : passed.toList = before ++ after) (some : after ≠ []) :
    ¬ pattern.toList <+: after ++ (text.sliceFrom stop).copy.toList := by
  rintro ⟨rest, begins⟩
  have passedEq : passed = String.ofList before ++ String.ofList after := by
    rw [← String.ofList_append, ← parts, String.ofList_toList]
  have whole : text.copy = ((text.sliceTo start).copy ++ String.ofList before) ++
      (String.ofList after ++ (text.sliceFrom stop).copy) := by
    rw [start.splits.eq_append, split, passedEq]
    simp only [String.append_assoc]
  obtain ⟨position, here⟩ : ∃ position : text.Pos, position.Splits _ _ :=
    ⟨_, String.Slice.Pos.splits_ofEqAppend whole⟩
  have later : String.ofList after ++ (text.sliceFrom stop).copy =
      pattern ++ String.ofList rest := by
    rw [← String.toList_inj]
    simp [begins]
  have occurs := ForwardStringSearcher.matchesAt_iff_splits.mpr ⟨_, _, later ▸ here⟩
  refine absent position ?_ ?_ occurs
  · refine (start.splits.le_iff_exists_eq_append here).mpr ⟨String.ofList before, rfl, ?_⟩
    rw [split, passedEq, String.append_assoc]
  · refine (here.lt_iff_exists_eq_append stop.splits).mpr ⟨String.ofList after, ?_, ?_, rfl⟩
    · simpa using some
    · rw [front, passedEq, String.append_assoc]

theorem foldl_replacedStep {pattern replacement : String} {text : String.Slice}
    {start : text.Pos} {steps : List (SearchStep text)} (nonempty : pattern ≠ "")
    (valid : IsValidSearchFrom pattern start steps) (found : String) :
    (steps.foldl (replacedStep replacement) found).toList =
      found.toList ++ Patterns.replace pattern.toList replacement.toList
        (text.sliceFrom start).copy.toList := by
  have letters : pattern.toList ≠ [] := by simpa using nonempty
  induction valid generalizing found with
  | endPos => simp [Patterns.replace, Patterns.replaceFrom]
  | matched occurs later induction =>
      obtain ⟨before, after, start, stop⟩ :=
        ForwardStringSearcher.isLongestMatchAt_iff_splits.mp occurs
      rw [List.foldl_cons, induction, letters_from start, letters_from stop,
        String.toList_append, Patterns.replace_occurrence letters]
      simp [replacedStep]
  | @mismatched _ start stop later absent rest induction =>
      obtain ⟨passed, _, front, split⟩ :=
        (start.splits.lt_iff_exists_eq_append stop.splits).mp later
      have slice : text.slice! start stop = text.slice start stop (Std.le_of_lt later) :=
        String.Slice.slice_eq_slice!.symm
      have letters : (text.slice start stop (Std.le_of_lt later)).copy = passed := by
        obtain ⟨_, same⟩ := String.Slice.copy_slice_eq_iff_splits.mpr
          ⟨_, _, split ▸ start.splits, front ▸ stop.splits⟩
        exact same
      have passes := fun before after (parts : passed.toList = before ++ after) some =>
        search_passes absent front split parts some
      rw [List.foldl_cons, induction, split, String.toList_append, Patterns.replace_passes passes]
      simp [replacedStep, slice, letters]

/-- Replacing in a text is replacing in its letters. -/
theorem toList_replace (text replacement : String) {pattern : String} (nonempty : pattern ≠ "") :
    (text.replace pattern replacement).toList =
      Patterns.replace pattern.toList replacement.toList text.toList := by
  have lawful := ForwardStringSearcher.lawfulToForwardSearcherModel nonempty
  have steps := @foldl_replacedStep pattern replacement _ _ _ nonempty
    (lawful.isValidSearchFrom_toList text.toSlice) ""
  rw [Std.Iter.foldl_toList] at steps
  refine Eq.trans ?_ (steps.trans ?_)
  · unfold String.replace String.Slice.replace
    congr 2
    funext found step
    cases step <;> rfl
  · simp

end Replacing

/-! ## Splitting -/

theorem next_of_get {text : String} {position : String.Pos.Raw} {letter : Char}
    (same : position.get text = letter) :
    (position.next text).byteIdx = position.byteIdx + letter.utf8Size := by
  rw [← same]
  rfl

theorem get_singleton (letter : Char) :
    String.Pos.Raw.get (String.singleton letter) 0 = letter := by
  rw [String.singleton_eq_ofList]
  exact String.get_of_valid [] [letter]

theorem next_singleton (letter : Char) :
    (String.Pos.Raw.next (String.singleton letter) 0).byteIdx = letter.utf8Size := by
  rw [next_of_get (get_singleton letter), String.Pos.Raw.byteIdx_zero, Nat.zero_add]

theorem splitOnAux_letter (text : String) (letter : Char) (begun position : String.Pos.Raw)
    (parts : List String) :
    String.splitOnAux text (String.singleton letter) begun position 0 parts =
      String.splitAux text (· == letter) begun position parts := by
  rw [String.splitOnAux, String.splitAux]
  split
  · rfl
  · rename_i inside
    have closer : text.rawEndPos.1 - (position.next text).1 < text.rawEndPos.1 - position.1 :=
      Nat.sub_lt_sub_left (Nat.gt_of_not_le (mt decide_eq_true inside))
        (String.Pos.Raw.lt_next text position)
    have ends : (String.Pos.Raw.next (String.singleton letter) 0).atEnd
        (String.singleton letter) = true := by
      simp [String.Pos.Raw.le_iff, next_singleton]
    rw [get_singleton]
    by_cases same : (position.get text == letter) = true
    · have place : (position.next text).unoffsetBy
          (String.Pos.Raw.next (String.singleton letter) 0) = position := by
        apply String.Pos.Raw.ext
        simp [next_of_get (eq_of_beq same), next_singleton]
      simp only [same, if_true, ends, place]
      exact splitOnAux_letter text letter _ _ _
    · have place : position.unoffsetBy 0 = position := by
        apply String.Pos.Raw.ext
        simp
      simp only [same, place]
      exact splitOnAux_letter text letter _ _ _
termination_by text.rawEndPos.1 - position.1

/-- Splitting a text at a letter is splitting its letters. -/
theorem splitOn_letter (text : String) (letter : Char) :
    text.splitOn (String.singleton letter) =
      (text.toList.splitOn letter).map String.ofList := by
  rw [String.splitOn, if_neg (by simp), splitOnAux_letter]
  exact String.splitToList_of_valid text (· == letter)

end MeridianPostgreSQL.Texts
