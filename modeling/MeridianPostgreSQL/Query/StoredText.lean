import MeridianPostgreSQL.Query.Values
import Mathlib.Data.List.TakeWhile

/-! # Texts of stored values

How the server prints `jsonb`, and the values that it prints as Python does. -/

namespace MeridianPostgreSQL.Query

/-! ## Text of the server -/

/-- A character in a string: only quotes, backslashes and controls are escaped. -/
def storedCharacter (character : Char) : List Char :=
  if character = '"' then ['\\', '"']
  else if character = '\\' then ['\\', '\\']
  else if character = '\n' then ['\\', 'n']
  else if character = '\r' then ['\\', 'r']
  else if character = '\t' then ['\\', 't']
  else if character.toNat = 8 then ['\\', 'b']
  else if character.toNat = 12 then ['\\', 'f']
  else if character.toNat < 32 then escapeUnit character.toNat
  else [character]

def storedString (text : String) : List Char :=
  '"' :: (text.toList.flatMap storedCharacter ++ ['"'])

/-- An exponent as Python writes it: a sign and digits. -/
def readExponent (digits : List Char) : Int :=
  match digits with
  | '-' :: digits => -(Nat.ofDigitChars 10 digits 0 : Int)
  | '+' :: digits => Nat.ofDigitChars 10 digits 0
  | digits => Nat.ofDigitChars 10 digits 0

/-- Digits with a point after so many of them. -/
def placePoint (digits : List Char) (position : Int) : List Char :=
  if position ≤ 0 then '0' :: '.' :: (List.replicate position.natAbs '0' ++ digits)
  else if digits.length ≤ position.toNat then
    digits ++ List.replicate (position.toNat - digits.length) '0'
  else digits.take position.toNat ++ '.' :: digits.drop position.toNat

/-- The digits of a mantissa, with its point moved. -/
def movePoint (mantissa : List Char) (exponent : Int) : List Char :=
  let whole := mantissa.takeWhile (· ≠ '.')
  placePoint (whole ++ mantissa.drop (whole.length + 1)) (whole.length + exponent)

/-- A float that Python spells, as a plain decimal. -/
def plainDecimal (spelled : List Char) : List Char :=
  match spelled.dropWhile (· ≠ 'e') with
  | [] => spelled
  | _ :: exponent =>
      match spelled.takeWhile (· ≠ 'e') with
      | '-' :: mantissa => '-' :: movePoint mantissa (readExponent exponent)
      | mantissa => movePoint mantissa (readExponent exponent)

example : plainDecimal "-1.5e-07".toList = "-0.00000015".toList := by rfl
example : plainDecimal "1e+16".toList = "10000000000000000".toList := by rfl

/-- Shorter names come first, and names of one length by their bytes. -/
def storedBefore (left right : String) : Bool :=
  left.utf8ByteSize < right.utf8ByteSize ||
    (left.utf8ByteSize = right.utf8ByteSize && left ≤ right)

mutual

/-- The members of every object in the order of the server. -/
def arranged : Json → Json
  | .array items => .array (arrangedItems items)
  | .object members =>
      .object ((arrangedMembers members).mergeSort fun left right => storedBefore left.1 right.1)
  | value => value

def arrangedItems : List Json → List Json
  | [] => []
  | item :: rest => arranged item :: arrangedItems rest

def arrangedMembers : List (String × Json) → List (String × Json)
  | [] => []
  | (name, value) :: rest => (name, arranged value) :: arrangedMembers rest

end

section Print

variable (spell : Rat → List Char)

mutual

def printText : Json → List Char
  | .null => "null".toList
  | .bool true => "true".toList
  | .bool false => "false".toList
  | .int value => (toString value).toList
  | .float value => plainDecimal (spell value)
  | .string text => storedString text
  | .array items => '[' :: (printItems items ++ [']'])
  | .object members => '{' :: (printMembers members ++ ['}'])

def printItems : List Json → List Char
  | [] => []
  | [item] => printText item
  | item :: rest => printText item ++ ',' :: ' ' :: printItems rest

def printMembers : List (String × Json) → List Char
  | [] => []
  | [(name, value)] => storedString name ++ ':' :: ' ' :: printText value
  | (name, value) :: rest =>
      storedString name ++ ':' :: ' ' :: printText value ++ ',' :: ' ' :: printMembers rest

end

/-- `::text` of a `jsonb` value. -/
def storedText (value : Json) : String := String.ofList (printText spell (arranged value))

end Print

/-! ## Blanks between values -/

/-- What a reader of JSON is in the middle of. -/
inductive Scan where
  | outside
  | inside
  | escaped

/-- The blanks that stand outside of strings. -/
def blanks : Scan → List Char → Nat
  | _, [] => 0
  | .outside, character :: rest =>
      if character = '"' then blanks .inside rest
      else (if character = ' ' then 1 else 0) + blanks .outside rest
  | .inside, character :: rest =>
      if character = '\\' then blanks .escaped rest
      else if character = '"' then blanks .outside rest
      else blanks .inside rest
  | .escaped, _ :: rest => blanks .inside rest

/-- Neither a quote nor a blank. -/
def isBare (character : Char) : Bool := character ≠ '"' && character ≠ ' '

theorem blanks_bare {text : List Char} (bare : ∀ character ∈ text, isBare character = true)
    (rest : List Char) : blanks .outside (text ++ rest) = blanks .outside rest := by
  induction text with
  | nil => rfl
  | cons character text induction =>
      obtain ⟨first, others⟩ := List.forall_mem_cons.mp bare
      simp only [isBare, Bool.and_eq_true, decide_eq_true_eq] at first
      rw [List.cons_append, blanks, if_neg first.1, if_neg first.2, Nat.zero_add,
        induction others]

theorem blanks_word {text : List Char} (bare : text.all isBare = true) (rest : List Char) :
    blanks .outside (text ++ rest) = blanks .outside rest :=
  blanks_bare (List.all_eq_true.mp bare) rest

theorem blanks_cons {character : Char} (bare : isBare character = true) (rest : List Char) :
    blanks .outside (character :: rest) = blanks .outside rest :=
  blanks_bare (List.forall_mem_singleton.mpr bare) rest

/-- What is written for a character does not end the string it stands in. -/
def StaysInside (written : Char → List Char) : Prop :=
  ∀ character rest, blanks .inside (written character ++ rest) = blanks .inside rest

theorem hexDigit_plain : ∀ {digit : Nat}, digit < 16 →
    hexDigit digit ≠ '\\' ∧ hexDigit digit ≠ '"' := by
  decide

theorem escapeUnit_inside {unit : Nat} (small : unit < 65536) (rest : List Char) :
    blanks .inside (escapeUnit unit ++ rest) = blanks .inside rest := by
  have first := hexDigit_plain (by omega : unit / 4096 < 16)
  have second := hexDigit_plain (by omega : unit / 256 % 16 < 16)
  have third := hexDigit_plain (by omega : unit / 16 % 16 < 16)
  have fourth := hexDigit_plain (by omega : unit % 16 < 16)
  simp [escapeUnit, blanks, first, second, third, fourth]

theorem character_small (character : Char) : character.toNat < 1114112 := by
  rcases character.valid with low | ⟨_, high⟩
  · exact Nat.lt_trans low (by decide)
  · exact high

theorem plain_inside {character : Char} (quote : character ≠ '"') (backslash : character ≠ '\\')
    (rest : List Char) : blanks .inside ([character] ++ rest) = blanks .inside rest := by
  simp [blanks, quote, backslash]

theorem escapeCharacter_inside : StaysInside escapeCharacter := by
  intro character rest
  have small := character_small character
  unfold escapeCharacter
  split
  · rfl
  · rename_i quote
    split
    · rfl
    · rename_i backslash
      repeat' split
      all_goals try rfl
      · exact plain_inside quote backslash rest
      · exact escapeUnit_inside (by assumption) rest
      · dsimp only
        rw [List.append_assoc, escapeUnit_inside (by omega), escapeUnit_inside (by omega)]

theorem storedCharacter_inside : StaysInside storedCharacter := by
  intro character rest
  unfold storedCharacter
  split
  · rfl
  · rename_i quote
    split
    · rfl
    · rename_i backslash
      repeat' split
      all_goals try rfl
      · exact escapeUnit_inside (by omega) rest
      · exact plain_inside quote backslash rest

theorem blanks_quoted {written : Char → List Char} (stays : StaysInside written)
    (characters rest : List Char) :
    blanks .outside ('"' :: (characters.flatMap written ++ ['"']) ++ rest) =
      blanks .outside rest := by
  have inner : blanks .inside (characters.flatMap written ++ ('"' :: rest)) =
      blanks .outside rest := by
    induction characters with
    | nil => rfl
    | cons character characters induction =>
        rw [List.flatMap_cons, List.append_assoc, stays, induction]
  rw [List.cons_append, List.append_assoc]
  exact inner

/-! ## Numbers -/

/-- Python spells a float with digits, a sign, a point and an exponent. -/
def SpellsNumbers (spell : Rat → List Char) : Prop :=
  ∀ value, ∀ character ∈ spell value, character.isDigit = true ∨ character ∈ ['-', '+', '.', 'e']

theorem bare_of_digit {character : Char}
    (digit : character.isDigit = true ∨ character ∈ ['-', '+', '.', 'e']) :
    isBare character = true := by
  rcases digit with digit | listed
  · have quote : character ≠ '"' := by
      rintro rfl
      exact nomatch digit
    have blank : character ≠ ' ' := by
      rintro rfl
      exact nomatch digit
    simp [isBare, quote, blank]
  · have bare : ['-', '+', '.', 'e'].all isBare = true := rfl
    exact List.all_eq_true.mp bare character listed

theorem natText_digits {number : Nat} {character : Char}
    (member : character ∈ (toString number).toList) : character.isDigit = true := by
  rw [Nat.toString_eq_repr, Nat.toList_repr] at member
  exact Nat.isDigit_of_mem_toDigits (by decide) (by decide) member

/-- Integers are written with digits and a sign. -/
theorem intText_digits {value : Int} {character : Char}
    (member : character ∈ (toString value).toList) :
    character.isDigit = true ∨ character ∈ ['-', '+', '.', 'e'] := by
  rw [Int.toString_eq_repr, Int.repr_eq_if] at member
  split at member
  · exact .inl (natText_digits member)
  · rw [String.toList_append, List.mem_append] at member
    rcases member with sign | digits
    · have same : character = '-' := by simpa using sign
      exact .inr (by simp [same])
    · exact .inl (natText_digits digits)

theorem mem_placePoint {digits : List Char} {position : Int} {character : Char}
    (member : character ∈ placePoint digits position) :
    character ∈ digits ∨ character ∈ ['0', '.'] := by
  unfold placePoint at member
  split at member
  · simp only [List.mem_cons, List.mem_append, List.mem_replicate] at member
    simp only [List.mem_cons, List.not_mem_nil, or_false]
    tauto
  · split at member
    · simp only [List.mem_append, List.mem_replicate] at member
      simp only [List.mem_cons, List.not_mem_nil, or_false]
      tauto
    · rcases List.mem_append.mp member with before | after
      · exact .inl (List.mem_of_mem_take before)
      · rcases List.mem_cons.mp after with point | after
        · exact .inr (by simp [point])
        · exact .inl (List.mem_of_mem_drop after)

theorem mem_movePoint {mantissa : List Char} {exponent : Int} {character : Char}
    (member : character ∈ movePoint mantissa exponent) :
    character ∈ mantissa ∨ character ∈ ['0', '.'] := by
  rcases mem_placePoint member with digit | written
  · rcases List.mem_append.mp digit with whole | fraction
    · exact .inl ((List.takeWhile_sublist _).subset whole)
    · exact .inl (List.mem_of_mem_drop fraction)
  · exact .inr written

/-- The characters before an exponent. -/
theorem mem_mantissa {spelled : List Char} {character : Char}
    (member : character ∈ spelled.takeWhile (· ≠ 'e')) :
    character ∈ spelled ∧ character ≠ 'e' :=
  ⟨(List.takeWhile_sublist _).subset member, by simpa using List.mem_takeWhile_imp member⟩

theorem not_mem_of_dropWhile {spelled : List Char}
    (none : spelled.dropWhile (· ≠ 'e') = []) : 'e' ∉ spelled := by
  intro member
  have differs := List.dropWhile_eq_nil_iff.mp none 'e' member
  simp at differs

/-- A plain decimal keeps characters of a float, and has no exponent. -/
theorem mem_plainDecimal {spelled : List Char} {character : Char}
    (member : character ∈ plainDecimal spelled) :
    character ∈ spelled ∧ ('e' ∈ spelled → character ≠ 'e') ∨ character ∈ ['0', '.'] := by
  unfold plainDecimal at member
  split at member
  · rename_i none
    exact .inl ⟨member, fun exponent => absurd exponent (not_mem_of_dropWhile none)⟩
  · split at member
    · rename_i mantissa signed
      have kept : ∀ {other}, other ∈ '-' :: mantissa → other ∈ spelled ∧ other ≠ 'e' :=
        fun listed => mem_mantissa (signed ▸ listed)
      rcases List.mem_cons.mp member with sign | moved
      · subst sign
        obtain ⟨there, differs⟩ := kept List.mem_cons_self
        exact .inl ⟨there, fun _ => differs⟩
      · rcases mem_movePoint moved with digit | written
        · obtain ⟨there, differs⟩ := kept (List.mem_cons_of_mem _ digit)
          exact .inl ⟨there, fun _ => differs⟩
        · exact .inr written
    · rcases mem_movePoint member with digit | written
      · obtain ⟨there, differs⟩ := mem_mantissa digit
        exact .inl ⟨there, fun _ => differs⟩
      · exact .inr written

theorem plainDecimal_eq_iff (spelled : List Char) :
    plainDecimal spelled = spelled ↔ 'e' ∉ spelled := by
  constructor
  · intro same exponent
    rcases mem_plainDecimal (same.symm ▸ exponent) with ⟨_, differs⟩ | written
    · exact differs exponent rfl
    · exact absurd written (by decide)
  · intro plain
    have none : spelled.dropWhile (· ≠ 'e') = [] := by
      apply List.dropWhile_eq_nil_iff.mpr
      intro character member
      have differs : character ≠ 'e' := fun same => plain (same ▸ member)
      exact decide_eq_true differs
    rw [plainDecimal, none]

/-! ## Values -/

section Values

variable {spell : Rat → List Char}

theorem plainDecimal_bare (spells : SpellsNumbers spell) (value : Rat) :
    ∀ character ∈ plainDecimal (spell value), isBare character = true := by
  intro character member
  rcases mem_plainDecimal member with ⟨there, _⟩ | written
  · exact bare_of_digit (spells value character there)
  · have bare : ['0', '.'].all isBare = true := rfl
    exact List.all_eq_true.mp bare character written

mutual

/-- Python writes no blank between values. -/
theorem blanks_dumpText (spells : SpellsNumbers spell) : ∀ (value : Json) (rest : List Char),
    blanks .outside (dumpText spell value ++ rest) = blanks .outside rest
  | .null, rest => blanks_word (rfl : "null".toList.all isBare = true) rest
  | .bool true, rest => blanks_word (rfl : "true".toList.all isBare = true) rest
  | .bool false, rest => blanks_word (rfl : "false".toList.all isBare = true) rest
  | .int value, rest => blanks_bare (fun _ member => bare_of_digit (intText_digits member)) rest
  | .float value, rest =>
      blanks_bare (fun character member => bare_of_digit (spells value character member)) rest
  | .string text, rest => blanks_quoted escapeCharacter_inside text.toList rest
  | .array items, rest => by
      change blanks .outside ('[' :: (dumpItems spell items ++ [']']) ++ rest) = _
      rw [List.cons_append, List.append_assoc, blanks_cons rfl,
        blanks_dumpItems spells items, List.singleton_append, blanks_cons rfl]
  | .object members, rest => by
      change blanks .outside ('{' :: (dumpMembers spell members ++ ['}']) ++ rest) = _
      rw [List.cons_append, List.append_assoc, blanks_cons rfl,
        blanks_dumpMembers spells members, List.singleton_append, blanks_cons rfl]

theorem blanks_dumpItems (spells : SpellsNumbers spell) : ∀ (items : List Json) (rest : List Char),
    blanks .outside (dumpItems spell items ++ rest) = blanks .outside rest
  | [], rest => rfl
  | [item], rest => blanks_dumpText spells item rest
  | item :: next :: items, rest => by
      change blanks .outside (dumpText spell item ++ ',' :: dumpItems spell (next :: items) ++
        rest) = _
      rw [List.append_assoc, blanks_dumpText spells item, List.cons_append, blanks_cons rfl,
        blanks_dumpItems spells (next :: items)]

theorem blanks_dumpMembers (spells : SpellsNumbers spell) :
    ∀ (members : List (String × Json)) (rest : List Char),
    blanks .outside (dumpMembers spell members ++ rest) = blanks .outside rest
  | [], rest => rfl
  | [(name, value)], rest => by
      change blanks .outside (dumpString name ++ ':' :: dumpText spell value ++ rest) = _
      rw [List.append_assoc, dumpString,
        blanks_quoted escapeCharacter_inside, List.cons_append, blanks_cons rfl,
        blanks_dumpText spells value]
  | (name, value) :: next :: members, rest => by
      change blanks .outside (dumpString name ++ (':' :: dumpText spell value) ++
        (',' :: dumpMembers spell (next :: members)) ++ rest) = _
      rw [List.append_assoc, List.append_assoc, dumpString,
        blanks_quoted escapeCharacter_inside, List.cons_append, blanks_cons rfl,
        blanks_dumpText spells value, List.cons_append, blanks_cons rfl,
        blanks_dumpMembers spells (next :: members)]

end

/-- A text that leaves the blanks after it. -/
def KeepsBlanks (text : List Char) : Prop :=
  ∀ rest, blanks .outside rest ≤ blanks .outside (text ++ rest)

/-- A blank stands between two items. -/
theorem blanks_between {first others : List Char} (keeps : KeepsBlanks first)
    (follows : KeepsBlanks others) (rest : List Char) :
    blanks .outside rest < blanks .outside ((first ++ ',' :: ' ' :: others) ++ rest) := by
  have before := keeps (',' :: ' ' :: (others ++ rest))
  have after := follows rest
  rw [blanks_cons rfl, blanks, if_neg (by decide), if_pos rfl] at before
  rw [List.append_assoc, List.cons_append, List.cons_append]
  omega

/-- A blank stands before the value of a member. -/
theorem blanks_named {name : String} {others : List Char} (follows : KeepsBlanks others)
    (rest : List Char) :
    blanks .outside rest < blanks .outside ((storedString name ++ ':' :: ' ' :: others) ++ rest) := by
  have after := follows rest
  rw [List.append_assoc, storedString, blanks_quoted storedCharacter_inside, List.cons_append,
    List.cons_append, blanks_cons rfl, blanks, if_neg (by decide), if_pos rfl]
  omega

mutual

theorem blanks_printText (spells : SpellsNumbers spell) :
    ∀ value : Json, KeepsBlanks (printText spell value)
  | .null => fun rest => (blanks_dumpText spells .null rest).ge
  | .bool true => fun rest => (blanks_dumpText spells (.bool true) rest).ge
  | .bool false => fun rest => (blanks_dumpText spells (.bool false) rest).ge
  | .int value => fun rest => (blanks_dumpText spells (.int value) rest).ge
  | .float value => fun rest => (blanks_bare (plainDecimal_bare spells value) rest).ge
  | .string text => fun rest => (blanks_quoted storedCharacter_inside text.toList rest).ge
  | .array items => fun rest => by
      have inner := blanks_printItems spells items (']' :: rest)
      change _ ≤ blanks .outside ('[' :: (printItems spell items ++ [']']) ++ rest)
      rw [List.cons_append, List.append_assoc, blanks_cons rfl]
      rwa [blanks_cons rfl] at inner
  | .object members => fun rest => by
      have inner := blanks_printMembers spells members ('}' :: rest)
      change _ ≤ blanks .outside ('{' :: (printMembers spell members ++ ['}']) ++ rest)
      rw [List.cons_append, List.append_assoc, blanks_cons rfl]
      rwa [blanks_cons rfl] at inner

theorem blanks_printItems (spells : SpellsNumbers spell) :
    ∀ items : List Json, KeepsBlanks (printItems spell items)
  | [] => fun _ => Nat.le_refl _
  | [item] => blanks_printText spells item
  | item :: next :: items => fun rest =>
      (blanks_between (blanks_printText spells item)
        (blanks_printItems spells (next :: items)) rest).le

theorem blanks_printMembers (spells : SpellsNumbers spell) :
    ∀ members : List (String × Json), KeepsBlanks (printMembers spell members)
  | [] => fun _ => Nat.le_refl _
  | [(_, value)] => fun rest => (blanks_named (blanks_printText spells value) rest).le
  | (name, value) :: next :: members => fun rest => by
      have held : KeepsBlanks (printText spell value ++
          ',' :: ' ' :: printMembers spell (next :: members)) := fun rest =>
        (blanks_between (blanks_printText spells value)
          (blanks_printMembers spells (next :: members)) rest).le
      have named := (@blanks_named name _ held rest).le
      simpa [printMembers] using named

end

/-! ## Agreement -/

/-- The values that Python and the server print alike. -/
inductive PrintsAlike (spell : Rat → List Char) : Json → Prop
  | null : PrintsAlike spell .null
  | bool (value : Bool) : PrintsAlike spell (.bool value)
  | int (value : Int) : PrintsAlike spell (.int value)
  | float {value : Rat} (plain : 'e' ∉ spell value) : PrintsAlike spell (.float value)
  | string {text : String} (ascii : ∀ character ∈ text.toList, character.toNat < 127) :
      PrintsAlike spell (.string text)
  | empty : PrintsAlike spell (.array [])
  | single {item : Json} (alike : PrintsAlike spell item) : PrintsAlike spell (.array [item])
  | object : PrintsAlike spell (.object [])

theorem character_alike {character : Char} (ascii : character.toNat < 127) :
    escapeCharacter character = storedCharacter character := by
  unfold escapeCharacter storedCharacter
  have range : (' ' ≤ character ∧ character ≤ '~') ↔ ¬character.toNat < 32 := by
    have upper : character ≤ '~' := by
      rw [Char.le_def, UInt32.le_iff_toNat_le]
      exact Nat.le_of_lt_succ ascii
    rw [Char.le_def, UInt32.le_iff_toNat_le, Nat.not_lt]
    exact and_iff_left upper
  simp only [range]
  split_ifs <;> first | rfl | omega

theorem character_apart {character : Char} (beyond : ¬character.toNat < 127) :
    (∃ rest, escapeCharacter character = '\\' :: rest) ∧ storedCharacter character = [character] ∧
      character ≠ '\\' := by
  have differs : ∀ {other : Char}, other.toNat < 127 → character ≠ other := by
    rintro other small rfl
    exact beyond small
  have outside : ¬(' ' ≤ character ∧ character ≤ '~') := by
    rintro ⟨_, upper⟩
    rw [Char.le_def, UInt32.le_iff_toNat_le] at upper
    exact beyond (Nat.lt_succ_of_le upper)
  have quote : character ≠ '"' := differs (by decide)
  have backslash : character ≠ '\\' := differs (by decide)
  have newline : character ≠ '\n' := differs (by decide)
  have carriage : character ≠ '\r' := differs (by decide)
  have tab : character ≠ '\t' := differs (by decide)
  refine ⟨?_, ?_, backslash⟩
  · rw [escapeCharacter, if_neg quote, if_neg backslash, if_neg newline, if_neg carriage,
      if_neg tab, if_neg (by omega), if_neg (by omega), if_neg outside]
    split
    · exact ⟨_, rfl⟩
    · exact ⟨_, rfl⟩
  · rw [storedCharacter, if_neg quote, if_neg backslash, if_neg newline, if_neg carriage,
      if_neg tab, if_neg (by omega), if_neg (by omega), if_neg (by omega)]

theorem strings_alike_iff (characters : List Char) :
    characters.flatMap escapeCharacter = characters.flatMap storedCharacter ↔
      ∀ character ∈ characters, character.toNat < 127 := by
  constructor
  · intro same
    induction characters with
    | nil => exact nofun
    | cons character characters induction =>
        rw [List.flatMap_cons, List.flatMap_cons] at same
        by_cases ascii : character.toNat < 127
        · rw [character_alike ascii] at same
          exact List.forall_mem_cons.mpr ⟨ascii, induction (List.append_cancel_left same)⟩
        · obtain ⟨⟨rest, escaped⟩, stored, differs⟩ := character_apart ascii
          rw [escaped, stored] at same
          exact absurd (List.cons.inj same).1.symm differs
  · intro ascii
    induction characters with
    | nil => rfl
    | cons character characters induction =>
        obtain ⟨first, others⟩ := List.forall_mem_cons.mp ascii
        rw [List.flatMap_cons, List.flatMap_cons, character_alike first, induction others]

theorem blanks_array (spells : SpellsNumbers spell) (item next : Json) (items : List Json) :
    0 < blanks .outside (printText spell (.array (item :: next :: items))) := by
  have between := blanks_between (blanks_printText spells item)
    (blanks_printItems spells (next :: items)) [']']
  change 0 < blanks .outside ('[' :: (printItems spell (item :: next :: items) ++ [']']))
  rw [blanks_cons rfl]
  exact (Nat.zero_le _).trans_lt between

theorem blanks_object (spells : SpellsNumbers spell) (member : String × Json)
    (members : List (String × Json)) :
    0 < blanks .outside (printText spell (.object (member :: members))) := by
  have named : blanks .outside ['}'] <
      blanks .outside (printMembers spell (member :: members) ++ ['}']) := by
    cases members with
    | nil => exact blanks_named (blanks_printText spells member.2) _
    | cons next members =>
        have held : KeepsBlanks (printText spell member.2 ++
            ',' :: ' ' :: printMembers spell (next :: members)) := fun rest =>
          (blanks_between (blanks_printText spells member.2)
            (blanks_printMembers spells (next :: members)) rest).le
        have first := @blanks_named member.1 _ held ['}']
        simpa [printMembers] using first
  change 0 < blanks .outside ('{' :: (printMembers spell (member :: members) ++ ['}']))
  rw [blanks_cons rfl]
  exact (Nat.zero_le _).trans_lt named

/-- A text with a blank between its values is none of Python's. -/
theorem dumpText_ne (spells : SpellsNumbers spell) (value : Json) {text : List Char}
    (blank : 0 < blanks .outside text) : dumpText spell value ≠ text := by
  rintro rfl
  have none := blanks_dumpText spells value []
  rw [List.append_nil] at none
  rw [none] at blank
  exact Nat.lt_irrefl 0 blank

/-- Python and the server print a value alike exactly when nothing in it is
beyond ASCII, has an exponent or needs a separator. -/
theorem printed_alike_iff (spells : SpellsNumbers spell) : ∀ value : Json,
    dumpText spell value.canonical = printText spell (arranged value) ↔ PrintsAlike spell value
  | .null => iff_of_true rfl .null
  | .bool true => iff_of_true rfl (.bool true)
  | .bool false => iff_of_true rfl (.bool false)
  | .int value => iff_of_true rfl (.int value)
  | .float value => by
      change spell value = plainDecimal (spell value) ↔ _
      rw [eq_comm, plainDecimal_eq_iff]
      exact ⟨.float, fun alike => by cases alike; assumption⟩
  | .string text => by
      change dumpString text = storedString text ↔ _
      rw [dumpString, storedString, List.cons_inj_right, List.append_left_inj, strings_alike_iff]
      exact ⟨.string, fun alike => by cases alike; assumption⟩
  | .array [] => iff_of_true rfl .empty
  | .array [item] => by
      have inner := printed_alike_iff spells item
      change '[' :: (dumpText spell item.canonical ++ [']']) =
        '[' :: (printText spell (arranged item) ++ [']']) ↔ _
      rw [List.cons_inj_right, List.append_left_inj, inner]
      exact ⟨.single, fun alike => by cases alike; assumption⟩
  | .array (item :: next :: items) =>
      iff_of_false (dumpText_ne spells _ (blanks_array spells _ _ _)) (by rintro ⟨⟩)
  | .object [] => by
      have sorted : Json.canonical (.object []) = .object [] := by
        simp [Json.canonical, Json.normalize, Json.normalizeMembers, Json.sortMembers]
      have stored : arranged (.object []) = .object [] := by
        simp [arranged, arrangedMembers]
      rw [sorted, stored]
      exact iff_of_true rfl .object
  | .object (member :: members) => by
      refine iff_of_false (dumpText_ne spells _ ?_) (by rintro ⟨⟩)
      rw [arranged]
      cases sorted : (arrangedMembers (member :: members)).mergeSort fun left right =>
          storedBefore left.1 right.1 with
      | nil =>
          have length := congrArg List.length sorted
          rw [List.length_mergeSort] at length
          cases length
      | cons first rest => exact blanks_object spells first rest

theorem dumps_eq_iff (spells : SpellsNumbers spell) (value : Json) :
    dumps spell value = storedText spell value ↔ PrintsAlike spell value := by
  rw [← printed_alike_iff spells value]
  exact String.ofList_inj

end Values

end MeridianPostgreSQL.Query
