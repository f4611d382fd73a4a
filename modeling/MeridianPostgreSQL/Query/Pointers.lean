import MeridianPostgreSQL.Foundation.Texts
import MeridianPostgreSQL.Query.Compilation

/-! # Document pointers

The pointer to a member of a document, and the names that are bound for it. -/

namespace MeridianPostgreSQL.Query

open Settings

/-! ## Pointers -/

/-- A name as it is written in a pointer. -/
def escapeName (name : String) : String := (name.replace "~" "~0").replace "/" "~1"

/-- The pointer to the member of these names, from the outermost on. -/
def pointerTo (names : List String) : String := "/" ++ "/".intercalate (names.map escapeName)

/-! ## Letters -/

def escapedLetter (letter : Char) : List Char :=
  if letter = '~' then ['~', '0'] else if letter = '/' then ['~', '1'] else [letter]

/-- A letter between the two steps of decoding. -/
def halfEscapedLetter (letter : Char) : List Char :=
  if letter = '~' then ['~', '0'] else [letter]

theorem toList_escapeName (name : String) :
    (escapeName name).toList = name.toList.flatMap escapedLetter := by
  have tilde : "~".toList = ['~'] := rfl
  have slash : "/".toList = ['/'] := rfl
  unfold escapeName
  rw [Texts.toList_replace _ _ (by decide), Texts.toList_replace _ _ (by decide), tilde, slash,
    Patterns.replace_letter, Patterns.replace_letter, List.flatMap_assoc]
  congr 1
  funext letter
  unfold escapedLetter
  by_cases first : letter = '~'
  · simp [first]
  · by_cases second : letter = '/'
    · simp [second]
    · simp [first, second]

theorem slash_not_mem (name : String) : '/' ∉ (escapeName name).toList := by
  rw [toList_escapeName]
  intro listed
  obtain ⟨letter, _, inside⟩ := List.mem_flatMap.mp listed
  unfold escapedLetter at inside
  split at inside
  · simp at inside
  · split at inside
    · simp at inside
    · rename_i other
      exact other (List.mem_singleton.mp inside).symm

/-- The slashes are restored first, so a tilde before a one stays apart. -/
theorem restored_slashes (letters : List Char) :
    Patterns.replace ['~', '1'] ['/'] (letters.flatMap escapedLetter) =
      letters.flatMap halfEscapedLetter := by
  apply Patterns.replace_flatMap
  intro letter rest
  unfold escapedLetter halfEscapedLetter
  by_cases first : letter = '~'
  · simp [first, Patterns.replace, Patterns.replaceFrom]
  · by_cases second : letter = '/'
    · simp [second, Patterns.replace, Patterns.replaceFrom]
    · simp [first, second, Ne.symm first, Patterns.replace, Patterns.replaceFrom]

theorem restored_tildes (letters : List Char) :
    Patterns.replace ['~', '0'] ['~'] (letters.flatMap halfEscapedLetter) = letters := by
  have restored : Patterns.replace ['~', '0'] ['~'] (letters.flatMap halfEscapedLetter) =
      letters.flatMap fun letter => [letter] := by
    apply Patterns.replace_flatMap
    intro letter rest
    unfold halfEscapedLetter
    by_cases first : letter = '~'
    · simp [first, Patterns.replace, Patterns.replaceFrom]
    · simp [first, Ne.symm first, Patterns.replace, Patterns.replaceFrom]
  rw [restored, List.flatMap_singleton']

/-! ## Decoding -/

/-- An escaped name is read back. -/
theorem unescape_escapeName (name : String) : unescapeSegment (escapeName name) = .string name := by
  have codes : "~1".toList = ['~', '1'] ∧ "~0".toList = ['~', '0'] := ⟨rfl, rfl⟩
  have letters : ((escapeName name).replace "~1" "/").replace "~0" "~" = name := by
    rw [← String.toList_inj, Texts.toList_replace _ _ (by decide),
      Texts.toList_replace _ _ (by decide), codes.1, codes.2, toList_escapeName]
    exact (congrArg _ (restored_slashes name.toList)).trans (restored_tildes name.toList)
  exact congrArg Json.string letters

theorem pointerTo_startsWith (names : List String) : (pointerTo names).startsWith "/" = true := by
  simp [pointerTo]

/-- The segments of a pointer are its escaped names. -/
theorem pointerTo_segments {names : List String} (nonempty : names ≠ []) :
    ((pointerTo names).drop 1).toString.splitOn "/" = names.map escapeName := by
  have slash : ("/" : String) = String.singleton '/' := rfl
  have letters : ((pointerTo names).drop 1).toString.toList =
      ['/'].intercalate ((names.map escapeName).map String.toList) := by
    simp [pointerTo]
  have plain : ∀ part ∈ (names.map escapeName).map String.toList, '/' ∉ part := by
    intro part listed
    obtain ⟨_, segment, rfl⟩ := List.mem_map.mp listed
    obtain ⟨name, _, rfl⟩ := List.mem_map.mp segment
    exact slash_not_mem name
  rw [slash, Texts.splitOn_letter, letters, List.splitOn_intercalate '/' plain (by simpa using nonempty),
    List.map_map]
  simp

theorem pointerTo_names {names : List String} (nonempty : names ≠ []) :
    (((pointerTo names).drop 1).toString.splitOn "/").map unescapeSegment =
      names.map Json.string := by
  rw [pointerTo_segments nonempty, List.map_map]
  exact List.map_congr_left fun name _ => unescape_escapeName name

/-- Distinct paths have distinct pointers. -/
theorem pointerTo_inj {names others : List String} (nonempty : names ≠ []) (other : others ≠ [])
    (same : pointerTo names = pointerTo others) : names = others := by
  have decoded := pointerTo_names nonempty
  rw [same, pointerTo_names other] at decoded
  exact (List.map_injective_iff.mpr fun _ _ => Json.string.inj) decoded.symm

/-! ## Compilation -/

/-- The pointer to names is compiled to exactly these names, and to no others. -/
theorem documentPath_names {targets : Targets} {site : Site} {path : List Nat}
    {document : Expression} {compiled : QueryStatement} {names : List String}
    (nonempty : names ≠ [])
    (accepted : compile targets site (path ++ [0]) document = .ok compiled) :
    (∃ statement, compile targets site path (.documentPath document (pointerTo names)) =
        .ok statement ∧
      statement.command = [Piece.text "("] ++ compiled.command ++
        [Piece.text " #> ", slot site path .pointer, .text "::text[])"] ∧
      statement.parameters = compiled.parameters ++
        [bound site path .pointer (.array (names.map Json.string))]) ∧
      ∀ others, others ≠ [] → pointerTo others = pointerTo names → others = names := by
  constructor
  · refine ⟨documentPathStatement site path compiled (pointerTo names), ?_, rfl, ?_⟩
    · change (compile targets site (path ++ [0]) document >>= _) = _
      rw [accepted]
      exact if_pos (pointerTo_startsWith names)
    · rw [documentPathStatement, pointerTo_names nonempty]
  · intro others other same
    exact pointerTo_inj other nonempty same

/-! ## A document of the work queue -/

def bodyField : FieldLayout := ⟨"body", ⟨"body", by decide⟩, .json, false, true, .one, none, none⟩

def bodyTargets : Targets :=
  ⟨[("structured:example.work", "t0")],
    [("structured:example.work", { workLayout with fields := bodyField :: workLayout.fields })]⟩

/-- Names that hold both marks, a written escape and nothing at all. -/
theorem body_names :
    (∃ statement, Query.compile bodyTargets .filter []
        (.documentPath (.field none "body") (pointerTo ["~1", "a/~0b", ""])) = .ok statement ∧
      statement.command = [Piece.text "("] ++ ident ["t0", "body"] ++
        [Piece.text " #> ", slot .filter [] .pointer, .text "::text[])"] ∧
      statement.parameters = [] ++ [bound .filter [] .pointer
        (.array (["~1", "a/~0b", ""].map Json.string))]) ∧
      ∀ others, others ≠ [] → pointerTo others = pointerTo ["~1", "a/~0b", ""] →
        others = ["~1", "a/~0b", ""] := by
  have accepted : Query.compile bodyTargets .filter ([] ++ [0]) (.field none "body") =
      .ok ⟨ident ["t0", "body"], []⟩ := rfl
  exact documentPath_names (List.cons_ne_nil _ _) accepted

end MeridianPostgreSQL.Query
