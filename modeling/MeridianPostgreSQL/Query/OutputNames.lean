import Mathlib.Algebra.GroupWithZero.Nat
import MeridianPostgreSQL.Query.Execution
import MeridianPostgreSQL.Query.Pages

/-! # Output names

The server cuts a long name short, and the driver makes a mapping of a row by
the names of its columns. -/

namespace MeridianPostgreSQL.Query

/-! ## Names of the server -/

/-- The characters that fit into so many bytes. -/
def clip : Nat → List Char → List Char
  | _, [] => []
  | bytes, character :: rest =>
      if character.utf8Size ≤ bytes then character :: clip (bytes - character.utf8Size) rest
      else []

def encodedSize (characters : List Char) : Nat := (characters.map Char.utf8Size).sum

def nameBytes : Nat := 63

/-- A name as the server keeps it. In a statement with parameters the driver
makes one `%` of two before the server sees them; such names are left out. -/
def outputName (name : String) : String := String.ofList (clip nameBytes name.toList)

/-- The server keeps the whole name. -/
def Unclipped (name : String) : Prop := encodedSize name.toList ≤ nameBytes

instance (name : String) : Decidable (Unclipped name) := inferInstanceAs (Decidable (_ ≤ _))

theorem clip_fits {bytes : Nat} {characters : List Char}
    (fits : encodedSize characters ≤ bytes) : clip bytes characters = characters := by
  induction characters generalizing bytes with
  | nil => rfl
  | cons character rest induction =>
      simp only [encodedSize, List.map_cons, List.sum_cons] at fits induction
      rw [clip, if_pos (by omega), induction (by omega)]

theorem encodedSize_clip (bytes : Nat) (characters : List Char) :
    encodedSize (clip bytes characters) ≤ bytes := by
  induction characters generalizing bytes with
  | nil => exact Nat.zero_le _
  | cons character rest induction =>
      rw [clip]
      split
      · have later := induction (bytes - character.utf8Size)
        simp only [encodedSize, List.map_cons, List.sum_cons] at later ⊢
        omega
      · exact Nat.zero_le _

theorem clip_zero (characters : List Char) : clip 0 characters = [] := by
  cases characters with
  | nil => rfl
  | cons character rest =>
      have positive := character.utf8Size_pos
      rw [clip, if_neg (by omega)]

/-- What follows more characters than fit is lost. -/
theorem clip_append {bytes : Nat} {characters : List Char}
    (full : bytes ≤ encodedSize characters) (others : List Char) :
    clip bytes (characters ++ others) = clip bytes characters := by
  induction characters generalizing bytes with
  | nil =>
      cases Nat.le_zero.mp full
      rw [clip_zero, clip_zero]
  | cons character rest induction =>
      simp only [encodedSize, List.map_cons, List.sum_cons] at full induction
      rw [List.cons_append, clip, clip]
      split
      · rw [induction (by omega)]
      · rfl

theorem outputName_unclipped {name : String} (fits : Unclipped name) : outputName name = name := by
  rw [outputName, clip_fits fits, String.ofList_toList]

theorem unclipped_outputName (name : String) : Unclipped (outputName name) := by
  rw [Unclipped, outputName, String.toList_ofList]
  exact encodedSize_clip _ _

/-! ## Numbered names -/

/-- Names that are numbered from zero. -/
def numbered (stem : String) (count : Nat) : List String :=
  (List.range count).map fun index => stem ++ toString index

theorem mem_numbered {stem name : String} {count : Nat} :
    name ∈ numbered stem count ↔ ∃ index < count, stem ++ toString index = name := by
  simp [numbered]

theorem encodedSize_append (left right : List Char) :
    encodedSize (left ++ right) = encodedSize left + encodedSize right := by
  simp [encodedSize]

theorem digits_split {number : Nat} (large : 10 ≤ number) :
    (toString number).toList =
      (toString (number / 10)).toList ++ [Nat.digitChar (number % 10)] := by
  simp only [Nat.toString_eq_repr, Nat.toList_repr]
  exact Nat.toDigits_of_base_le (by decide) large

theorem digitChar_size : ∀ {digit : Nat}, digit < 10 →
    (Nat.digitChar digit).utf8Size = 1 := by
  decide

/-- A numbered name that does not fit is cut like the name of a smaller number. -/
theorem outputName_cut {stem : String} (short : encodedSize stem.toList < nameBytes)
    {number : Nat} (long : ¬Unclipped (stem ++ toString number)) :
    10 ≤ number ∧
      outputName (stem ++ toString number) = outputName (stem ++ toString (number / 10)) := by
  have large : 10 ≤ number := by
    by_contra small
    apply long
    have digit := digitChar_size (Nat.lt_of_not_le small)
    rw [Unclipped, String.toList_append, encodedSize_append]
    simp only [Nat.toString_eq_repr, Nat.toList_repr,
      Nat.toDigits_of_lt_base (Nat.lt_of_not_le small)]
    simp only [encodedSize, List.map_cons, List.map_nil, List.sum_cons, List.sum_nil, digit] at short ⊢
    omega
  refine ⟨large, ?_⟩
  have digit := digitChar_size (Nat.mod_lt number (by decide : 10 > 0))
  rw [Unclipped, String.toList_append, digits_split large, ← List.append_assoc,
    ← String.toList_append, encodedSize_append] at long
  simp only [encodedSize, List.map_cons, List.map_nil, List.sum_cons, List.sum_nil, digit] at long
  rw [outputName, String.toList_append, digits_split large, ← List.append_assoc,
    ← String.toList_append, clip_append, outputName]
  rw [encodedSize]
  omega

/-- Numbered names stay apart exactly when the server keeps them whole. -/
theorem numbered_apart_iff {stem : String} (short : encodedSize stem.toList < nameBytes)
    (count : Nat) : ((numbered stem count).map outputName).Nodup ↔
      ∀ name ∈ numbered stem count, Unclipped name := by
  constructor
  · intro apart name member
    obtain ⟨number, inside, rfl⟩ := mem_numbered.mp member
    by_contra long
    obtain ⟨large, same⟩ := outputName_cut short long
    rw [numbered, List.map_map, List.nodup_map_iff_inj_on List.nodup_range] at apart
    have equal := apart number (List.mem_range.mpr inside) (number / 10)
      (List.mem_range.mpr (by omega)) same
    omega
  · intro fit
    have kept : (numbered stem count).map outputName = numbered stem count := by
      conv_rhs => rw [← List.map_id (numbered stem count)]
      exact List.map_congr_left fun name member => outputName_unclipped (fit name member)
    rw [kept]
    exact List.nodup_range.map (numbered_injective stem)

/-! ## Rows by name -/

/-- `dict(zip(names, values))` -/
def keyedRow (names : List String) (values : List Json) : Row :=
  (names.zip values).foldl (fun row entry => setKey row entry.1 entry.2) []

theorem foldl_setKey {entries : List (String × Json)} (row : Row)
    (distinct : (entries.map Prod.fst).Nodup)
    (fresh : ∀ entry ∈ entries, entry.1 ∉ row.map Prod.fst) :
    entries.foldl (fun row entry => setKey row entry.1 entry.2) row = row ++ entries := by
  induction entries generalizing row with
  | nil => rw [List.foldl_nil, List.append_nil]
  | cons entry rest induction =>
      obtain ⟨absent, others⟩ := List.nodup_cons.mp distinct
      have added : setKey row entry.1 entry.2 = row ++ [entry] := by
        rw [setKey, if_neg (fresh entry List.mem_cons_self)]
      rw [List.foldl_cons, added, induction _ others, List.append_assoc, List.singleton_append]
      intro other listed
      rw [List.map_append, List.mem_append, not_or]
      refine ⟨fresh other (List.mem_cons_of_mem entry listed), ?_⟩
      intro same
      have equal : other.1 = entry.1 := List.mem_singleton.mp same
      exact absent (equal ▸ List.mem_map_of_mem listed)

/-- Columns that are named apart stay as they are. -/
theorem keyedRow_distinct {names : List String} {values : List Json} (distinct : names.Nodup)
    (length : values.length = names.length) : keyedRow names values = names.zip values := by
  have keys : (names.zip values).map Prod.fst = names :=
    List.map_fst_zip (by omega)
  exact foldl_setKey [] (by rwa [keys]) fun _ _ => List.not_mem_nil

/-! ## Keys of a result -/

/-- A column of a result: its name, and whether the name is one that the caller
declares or asks for. -/
abbrev OutputColumn := String × Bool

/-- The names that the server gives to the columns. -/
def outputNames (columns : List OutputColumn) : List String :=
  columns.map fun column => outputName column.1

/-- The columns are named apart, and each name that a caller declares or asks for
leads to the value of its own column when internal columns have been removed. -/
structure KeysOwned (columns : List OutputColumn) (internal : List String) : Prop where
  distinct : (outputNames columns).Nodup
  carried : ∀ values : List Json, values.length = columns.length →
    ∀ {index : Nat} {name : String} {value : Json}, columns[index]? = some (name, true) →
      values[index]? = some value →
      Json.get ((keyedRow (outputNames columns) values).filter fun column =>
        column.1 ∉ internal) name = some value

theorem keysOwned_iff (columns : List OutputColumn) (internal : List String) :
    KeysOwned columns internal ↔ (outputNames columns).Nodup ∧
      ∀ name, (name, true) ∈ columns → Unclipped name ∧ name ∉ internal := by
  constructor
  · intro owned
    refine ⟨owned.distinct, ?_⟩
    intro name listed
    obtain ⟨index, inside, same⟩ := List.mem_iff_getElem.mp listed
    have found : columns[index]? = some (name, true) := List.getElem?_eq_some_iff.mpr ⟨inside, same⟩
    have held := owned.carried (List.replicate columns.length .null) (by simp) found
      (List.getElem?_replicate_of_lt inside)
    have visible := List.mem_filter.mp (Json.mem_of_get held)
    rw [keyedRow_distinct owned.distinct (by simp [outputNames])] at visible
    obtain ⟨column, _, named⟩ := List.mem_map.mp (List.of_mem_zip visible.1).1
    exact ⟨named ▸ unclipped_outputName column.1, by simpa using visible.2⟩
  · rintro ⟨distinct, kept⟩
    refine ⟨distinct, ?_⟩
    intro values length index name value found held
    obtain ⟨fits, foreign⟩ := kept name (List.mem_of_getElem? found)
    have same : values.length = (outputNames columns).length := by
      rw [length, outputNames, List.length_map]
    rw [keyedRow_distinct distinct same]
    have keys : ((outputNames columns).zip values).map Prod.fst = outputNames columns :=
      List.map_fst_zip (by omega)
    have named : (outputNames columns)[index]? = some name := by
      rw [outputNames, List.getElem?_map, found, Option.map_some, outputName_unclipped fits]
    have unique : (((outputNames columns).zip values).map Prod.fst).Nodup := by rwa [keys]
    have paired : ((outputNames columns).zip values)[index]? = some (name, value) :=
      List.getElem?_zip_eq_some.mpr ⟨named, held⟩
    apply (Json.get_eq_some_iff ((List.filter_sublist.map Prod.fst).nodup unique)).mpr
    exact List.mem_filter.mpr ⟨List.mem_of_getElem? paired, by simpa using foreign⟩

end MeridianPostgreSQL.Query
