import MeridianPostgreSQL.Foundation.Numerals
import MeridianPostgreSQL.Foundation.Patterns
import MeridianPostgreSQL.Query.Execution
import Mathlib.Tactic.IntervalCases

/-! # Values of columns

The values that a column of each logical type holds, the texts that the results
of a query hold of them, and the values that the server reads such texts as. -/

namespace MeridianPostgreSQL.Query

open Numerals Settings

/-! ## Numbers -/

inductive Numeric where
  | finite (unscaled : Int) (scale : Nat)
  | notANumber

def unsignedText (unscaled scale : Nat) : List Char :=
  Nat.toDigits 10 (unscaled / 10 ^ scale) ++
    if scale = 0 then [] else '.' :: padded scale unscaled

/-- `format(value, "f")` -/
def Numeric.text : Numeric → List Char
  | .finite unscaled scale =>
      (if unscaled < 0 then ['-'] else []) ++ unsignedText unscaled.natAbs scale
  | .notANumber => "NaN".toList

def readFraction : List Char → Option (List Char)
  | [] => some []
  | '.' :: text => do
      let (digits, rest) ← takeNumber text
      if rest = [] then some digits else none
  | _ => none

def readUnsigned (text : List Char) : Option (Nat × Nat) := do
  let (whole, rest) ← takeNumber text
  let fraction ← readFraction rest
  some (Nat.ofDigitChars 10 (whole ++ fraction) 0, fraction.length)

/-- A literal of type `numeric`. -/
def readNumeric (text : List Char) : Option Numeric :=
  if text = "NaN".toList then some .notANumber
  else
    match takeChar '-' text with
    | some rest => (readUnsigned rest).map fun (unscaled, scale) => .finite (-unscaled) scale
    | none => (readUnsigned text).map fun (unscaled, scale) => .finite unscaled scale

example : readNumeric "-12.50".toList = some (.finite (-1250) 2) := by rfl

theorem readUnsigned_text (unscaled scale : Nat) :
    readUnsigned (unsignedText unscaled scale) = some (unscaled, scale) := by
  have digits : ∀ character ∈ Nat.toDigits 10 (unscaled / 10 ^ scale),
      character.isDigit = true := fun _ member =>
    Nat.isDigit_of_mem_toDigits (by decide) (by decide) member
  unfold readUnsigned unsignedText
  by_cases whole : scale = 0
  · subst whole
    rw [if_pos rfl, takeNumber_digits Nat.toDigits_ne_nil digits rfl]
    simp [readFraction, Nat.ofDigitChars_ten_toDigits]
  · have some : padded scale unscaled ≠ [] := by
      intro none
      have length := congrArg List.length none
      rw [padded_length] at length
      exact whole length
    have fraction : takeNumber (padded scale unscaled) = Option.some (padded scale unscaled, []) := by
      have taken := @takeNumber_digits _ [] some (@padded_digits scale unscaled) rfl
      rwa [List.append_nil] at taken
    rw [if_neg whole, takeNumber_digits Nat.toDigits_ne_nil digits rfl]
    simp [readFraction, fraction, Nat.ofDigitChars_append, Nat.ofDigitChars_ten_toDigits,
      @Nat.ofDigitChars_eq_ofDigitChars_zero _ (unscaled / 10 ^ scale), ofDigitChars_padded,
      Nat.div_add_mod]

theorem unsignedText_head (unscaled scale : Nat) : ∃ digit rest,
    unsignedText unscaled scale = digit :: rest ∧ digit.isDigit = true := by
  unfold unsignedText
  cases digits : Nat.toDigits 10 (unscaled / 10 ^ scale) with
  | nil => exact absurd digits Nat.toDigits_ne_nil
  | cons digit rest =>
      refine ⟨digit, _, rfl, ?_⟩
      exact Nat.isDigit_of_mem_toDigits (by decide) (by decide) (digits ▸ List.mem_cons_self)

theorem readNumeric_text (number : Numeric) : readNumeric number.text = some number := by
  cases number with
  | notANumber => rfl
  | finite unscaled scale =>
      obtain ⟨digit, rest, head, isDigit⟩ := unsignedText_head unscaled.natAbs scale
      have notSign : digit ≠ '-' := by
        rintro rfl
        exact nomatch isDigit
      have notLetter : digit ≠ 'N' := by
        rintro rfl
        exact nomatch isDigit
      have read := readUnsigned_text unscaled.natAbs scale
      have text : (Numeric.finite unscaled scale).text =
        (if unscaled < 0 then ['-'] else []) ++ unsignedText unscaled.natAbs scale := rfl
      rw [readNumeric, text]
      by_cases negative : unscaled < 0
      · rw [if_pos negative, if_neg (by simp), List.singleton_append, takeChar_cons]
        dsimp only
        rw [read]
        simp only [Option.map_some, Option.some.injEq, Numeric.finite.injEq, and_true]
        omega
      · rw [if_neg negative, List.nil_append, if_neg (by simp [head, notLetter])]
        have unsigned : takeChar '-' (unsignedText unscaled.natAbs scale) = none := by
          rw [head, takeChar, if_neg notSign]
        rw [unsigned]
        dsimp only
        rw [read]
        simp only [Option.map_some, Option.some.injEq, Numeric.finite.injEq, and_true]
        omega

/-! ## Dates and times -/

def isLeapYear (year : Nat) : Bool :=
  year % 4 = 0 && (year % 100 ≠ 0 || year % 400 = 0)

def daysInMonth (year month : Nat) : Nat :=
  if month = 2 then (if isLeapYear year then 29 else 28)
  else if month ∈ [4, 6, 9, 11] then 30
  else 31

/-- `datetime.date` -/
structure CalendarDate where
  year : Nat
  month : Nat
  day : Nat
  valid : 1 ≤ year ∧ year ≤ 9999 ∧ 1 ≤ month ∧ month ≤ 12 ∧ 1 ≤ day ∧
    day ≤ daysInMonth year month

/-- The number of the day, counted from the first one of the calendar. -/
def CalendarDate.number (date : CalendarDate) : Int :=
  let before : Int := date.year - 1
  let months := (List.range date.month).tail.map (daysInMonth date.year)
  365 * before + before / 4 - before / 100 + before / 400 + months.sum + date.day

/-- `isoformat` of a date. -/
def CalendarDate.text (date : CalendarDate) : List Char :=
  padded 4 date.year ++ '-' :: padded 2 date.month ++ '-' :: padded 2 date.day

def takeDate (text : List Char) : Option (CalendarDate × List Char) := do
  let (year, text) ← takeDigits 4 text
  let text ← takeChar '-' text
  let (month, text) ← takeDigits 2 text
  let text ← takeChar '-' text
  let (day, text) ← takeDigits 2 text
  if valid : 1 ≤ year ∧ year ≤ 9999 ∧ 1 ≤ month ∧ month ≤ 12 ∧ 1 ≤ day ∧
      day ≤ daysInMonth year month then some (⟨year, month, day, valid⟩, text)
  else none

/-- A literal of type `date`. -/
def readDate (text : List Char) : Option CalendarDate := do
  let (date, rest) ← takeDate text
  if rest = [] then some date else none

theorem takeDate_text (date : CalendarDate) (rest : List Char) :
    takeDate (date.text ++ rest) = some (date, rest) := by
  obtain ⟨year, month, day, valid⟩ := date
  have days : daysInMonth year month ≤ 31 := by
    unfold daysInMonth
    split_ifs <;> omega
  have text : CalendarDate.text ⟨year, month, day, valid⟩ ++ rest =
      padded 4 year ++ ('-' :: (padded 2 month ++ ('-' :: (padded 2 day ++ rest)))) := by
    simp [CalendarDate.text]
  have yearSmall : year < 10 ^ 4 := by omega
  have monthSmall : month < 10 ^ 2 := by omega
  have daySmall : day < 10 ^ 2 := by omega
  rw [text, takeDate]
  simp [takeDigits_padded yearSmall, takeDigits_padded monthSmall, takeDigits_padded daySmall,
    valid]

theorem readDate_text (date : CalendarDate) : readDate date.text = some date := by
  have taken := takeDate_text date []
  rw [List.append_nil] at taken
  simp [readDate, taken]

/-- `datetime.datetime` with an offset from UTC in seconds. -/
structure DateTime where
  date : CalendarDate
  hour : Nat
  minute : Nat
  second : Nat
  microsecond : Nat
  offset : Int
  valid : hour < 24 ∧ minute < 60 ∧ second < 60 ∧ microsecond < 1000000 ∧
    offset.natAbs < 86400

namespace DateTime

/-- The moment in microseconds. -/
def moment (time : DateTime) : Int :=
  ((time.date.number * 86400 + time.hour * 3600 + time.minute * 60 + time.second) -
    time.offset) * 1000000 + time.microsecond

def fraction (time : DateTime) : List Char :=
  if time.microsecond = 0 then [] else '.' :: padded 6 time.microsecond

/-- The text of an offset without its sign. -/
def offsetText (seconds : Nat) : List Char :=
  padded 2 (seconds / 3600) ++ ':' :: padded 2 (seconds / 60 % 60) ++
    if seconds % 60 = 0 then [] else ':' :: padded 2 (seconds % 60)

def zone (time : DateTime) : List Char :=
  (if time.offset < 0 then '-' else '+') :: offsetText time.offset.natAbs

def clock (time : DateTime) : List Char :=
  padded 2 time.hour ++ ':' :: padded 2 time.minute ++ ':' :: padded 2 time.second ++ time.fraction

/-- `isoformat` -/
def text (time : DateTime) : List Char :=
  time.date.text ++ 'T' :: time.clock ++ time.zone

/-- `isoformat().replace("+00:00", "Z")` -/
def wireText (time : DateTime) : List Char :=
  Patterns.replace "+00:00".toList "Z".toList time.text

end DateTime

def takeFraction (text : List Char) : Option (Nat × List Char) :=
  match takeChar '.' text with
  | some rest => takeDigits 6 rest
  | none => some (0, text)

def readOffset (text : List Char) : Option Nat := do
  let (hours, text) ← takeDigits 2 text
  let text ← takeChar ':' text
  let (minutes, text) ← takeDigits 2 text
  match takeChar ':' text with
  | some rest => do
      let (seconds, rest) ← takeDigits 2 rest
      if rest = [] then some (hours * 3600 + minutes * 60 + seconds) else none
  | none => if text = [] then some (hours * 3600 + minutes * 60) else none

/-- The offset at the end of a literal. -/
def readZone : List Char → Option Int
  | ['Z'] => some 0
  | '+' :: text => (readOffset text).map fun seconds : Nat => (seconds : Int)
  | '-' :: text => (readOffset text).map fun seconds : Nat => -(seconds : Int)
  | _ => none

/-- A literal of type `timestamp with time zone`, by its moment. -/
def readTimestamp (text : List Char) : Option Int := do
  let (date, text) ← takeDate text
  let text ← takeChar 'T' text
  let (hour, text) ← takeDigits 2 text
  let text ← takeChar ':' text
  let (minute, text) ← takeDigits 2 text
  let text ← takeChar ':' text
  let (second, text) ← takeDigits 2 text
  let (microsecond, text) ← takeFraction text
  let offset ← readZone text
  if valid : hour < 24 ∧ minute < 60 ∧ second < 60 ∧ microsecond < 1000000 ∧
      offset.natAbs < 86400 then
    some (DateTime.moment ⟨date, hour, minute, second, microsecond, offset, valid⟩)
  else none

theorem plus_digits {width number : Nat} : '+' ∉ padded width number := by
  intro member
  exact nomatch padded_digits _ member

theorem plus_offsetText (seconds : Nat) : '+' ∉ DateTime.offsetText seconds := by
  unfold DateTime.offsetText
  split_ifs <;> simp [plus_digits]

theorem plus_clock (time : DateTime) : '+' ∉ time.clock := by
  unfold DateTime.clock DateTime.fraction
  split_ifs <;> simp [plus_digits]

theorem offsetText_small {seconds : Nat} (small : seconds < 60) : DateTime.offsetText seconds =
    "00:00".toList ++ if seconds = 0 then [] else ':' :: padded 2 seconds := by
  have hours : seconds / 3600 = 0 := by omega
  have minutes : seconds / 60 % 60 = 0 := by omega
  have rest : seconds % 60 = seconds := Nat.mod_eq_of_lt small
  rw [DateTime.offsetText, hours, minutes, rest]
  rfl

theorem small_offset {seconds : Nat} (day : seconds < 86400)
    (begins : "00:00".toList <+: DateTime.offsetText seconds) : seconds < 60 := by
  obtain ⟨rest, same⟩ := begins
  have zero : "00:00".toList = padded 2 0 ++ ':' :: padded 2 0 := rfl
  rw [zero, DateTime.offsetText, List.append_assoc, List.append_assoc] at same
  obtain ⟨hours, same⟩ := List.append_inj same (by simp)
  rw [List.cons_append, List.cons_append] at same
  obtain ⟨minutes, _⟩ := List.append_inj (List.cons.inj same).2 (by simp)
  have first := padded_eq hours
  have second := padded_eq minutes
  omega

/-- What becomes of the end of a text when `+00:00` is replaced. -/
theorem replace_zone (time : DateTime) :
    Patterns.replace "+00:00".toList "Z".toList time.zone =
      if 0 ≤ time.offset ∧ time.offset < 60 then
        'Z' :: (if time.offset.natAbs = 0 then [] else ':' :: padded 2 time.offset.natAbs)
      else time.zone := by
  have day := time.valid.2.2.2.2
  have absent := plus_offsetText time.offset.natAbs
  by_cases west : time.offset < 0
  · have zone : time.zone = '-' :: DateTime.offsetText time.offset.natAbs := by
      rw [DateTime.zone, if_pos west]
    rw [if_neg (by omega), zone]
    exact @Patterns.replace_absent _ _ '+' "00:00".toList "Z".toList _ (by simp [absent])
  · have zone : time.zone = '+' :: DateTime.offsetText time.offset.natAbs := by
      rw [DateTime.zone, if_neg west]
    rw [zone]
    by_cases small : time.offset < 60
    · rw [if_pos ⟨by omega, small⟩, offsetText_small (by omega)]
      have rest : '+' ∉ if time.offset.natAbs = 0 then []
          else ':' :: padded 2 time.offset.natAbs := by
        split_ifs <;> simp [plus_digits]
      have passed := @Patterns.replace_absent _ _ '+' "00:00".toList "Z".toList _ rest
      exact congrArg (List.cons 'Z') passed
    · rw [if_neg fun bounds => small bounds.2]
      have unchanged := @Patterns.replace_absent _ _ '+' "00:00".toList "Z".toList _ absent
      have apart : ¬"+00:00".toList <+: '+' :: DateTime.offsetText time.offset.natAbs := by
        intro begins
        have few := small_offset day (List.cons_prefix_cons.mp begins).2
        omega
      rw [Patterns.replace, Patterns.replaceFrom, if_neg fun found => apart found.2]
      exact congrArg (List.cons '+') unchanged

theorem wireText_eq (time : DateTime) : time.wireText = time.date.text ++ ('T' :: (time.clock ++
    Patterns.replace "+00:00".toList "Z".toList time.zone)) := by
  have front : '+' ∉ time.date.text ++ 'T' :: time.clock := by
    simp [CalendarDate.text, plus_digits, plus_clock]
  have whole : time.text = (time.date.text ++ 'T' :: time.clock) ++ time.zone := by
    simp [DateTime.text]
  have replaced := @Patterns.replace_append _ _ '+' "00:00".toList "Z".toList _ front time.zone
  rw [DateTime.wireText, whole]
  exact replaced.trans (by rw [List.append_assoc, List.cons_append]; rfl)

theorem readOffset_text {seconds : Nat} (day : seconds < 86400) :
    readOffset (DateTime.offsetText seconds) = some seconds := by
  have hours : seconds / 3600 < 10 ^ 2 := by omega
  have minutes : seconds / 60 % 60 < 10 ^ 2 := by omega
  have rest : seconds % 60 < 10 ^ 2 := by omega
  have text : DateTime.offsetText seconds = padded 2 (seconds / 3600) ++ (':' ::
      (padded 2 (seconds / 60 % 60) ++
        (if seconds % 60 = 0 then [] else ':' :: padded 2 (seconds % 60)))) := by
    simp [DateTime.offsetText]
  rw [text]
  unfold readOffset
  by_cases whole : seconds % 60 = 0
  · simp [takeDigits_padded hours, takeDigits_all minutes, whole, takeChar]
    omega
  · simp [takeDigits_padded hours, takeDigits_padded minutes, whole, takeDigits_all rest]
    omega

/-- An offset of less than a minute east of UTC is not read back. -/
theorem readZone_replaced (time : DateTime) :
    readZone (Patterns.replace "+00:00".toList "Z".toList time.zone) =
      if 0 < time.offset ∧ time.offset < 60 then none else some time.offset := by
  have day := time.valid.2.2.2.2
  have read := readOffset_text day
  rw [replace_zone]
  by_cases small : 0 ≤ time.offset ∧ time.offset < 60
  · rw [if_pos small]
    by_cases utc : time.offset = 0
    · simp [utc, readZone]
    · rw [if_neg (by omega), if_pos (by omega)]
      rfl
  · rw [if_neg small, if_neg (by omega)]
    by_cases west : time.offset < 0
    · rw [DateTime.zone, if_pos west, readZone, read]
      simp only [Option.map_some, Option.some.injEq]
      omega
    · rw [DateTime.zone, if_neg west, readZone, read]
      simp only [Option.map_some, Option.some.injEq]
      omega

theorem takeFraction_text {time : DateTime} {rest : List Char} (ends : takeChar '.' rest = none) :
    takeFraction (time.fraction ++ rest) = some (time.microsecond, rest) := by
  have small : time.microsecond < 10 ^ 6 := time.valid.2.2.2.1
  unfold takeFraction DateTime.fraction
  by_cases whole : time.microsecond = 0
  · simp [whole, ends]
  · simp [whole, takeDigits_padded small]

theorem takeChar_zone (time : DateTime) :
    takeChar '.' (Patterns.replace "+00:00".toList "Z".toList time.zone) = none := by
  rw [replace_zone, DateTime.zone]
  split_ifs <;> rfl

theorem readTimestamp_text (time : DateTime) : readTimestamp time.wireText =
    if 0 < time.offset ∧ time.offset < 60 then none else some time.moment := by
  obtain ⟨hour, minute, second, _, _⟩ := time.valid
  have hourSmall : time.hour < 10 ^ 2 := by omega
  have minuteSmall : time.minute < 10 ^ 2 := by omega
  have secondSmall : time.second < 10 ^ 2 := by omega
  have clock : ∀ rest, time.clock ++ rest = padded 2 time.hour ++ (':' :: (padded 2 time.minute ++
      (':' :: (padded 2 time.second ++ (time.fraction ++ rest))))) := by
    intro rest
    simp [DateTime.clock]
  rw [wireText_eq, clock]
  unfold readTimestamp
  simp only [takeDate_text, takeChar_cons, takeDigits_padded hourSmall,
    takeDigits_padded minuteSmall, takeDigits_padded secondSmall,
    takeFraction_text (takeChar_zone time), readZone_replaced, bind, Option.bind_some]
  by_cases unread : 0 < time.offset ∧ time.offset < 60
  · rw [if_pos unread, if_pos unread, Option.bind_none]
  · rw [if_neg unread, if_neg unread, Option.bind_some, dif_pos time.valid]

/-! ## Identifiers -/

/-- The bytes of a `uuid`. -/
structure Uuid where
  bytes : List Nat
  length : bytes.length = 16
  small : ∀ byte ∈ bytes, byte < 256

def hexPair (byte : Nat) : List Char := [hexDigit (byte / 16), hexDigit (byte % 16)]

def hyphenated (digits : List Char) : List Char :=
  digits.take 8 ++ '-' :: (digits.drop 8).take 4 ++ '-' :: (digits.drop 12).take 4 ++
    '-' :: (digits.drop 16).take 4 ++ '-' :: digits.drop 20

/-- `str` of a `uuid`. -/
def Uuid.text (identifier : Uuid) : List Char := hyphenated (identifier.bytes.flatMap hexPair)

def hexValue (character : Char) : Option Nat :=
  if '0' ≤ character ∧ character ≤ '9' then some (character.toNat - 48)
  else if 'a' ≤ character ∧ character ≤ 'f' then some (character.toNat - 87)
  else none

def readHex : List Char → Option (List Nat)
  | [] => some []
  | high :: low :: rest => do
      let high ← hexValue high
      let low ← hexValue low
      let rest ← readHex rest
      some ((high * 16 + low) :: rest)
  | _ => none

/-- A literal of type `uuid`. -/
def readUuid (text : List Char) : Option Uuid := do
  let bytes ← readHex (text.filter (· ≠ '-'))
  if valid : bytes.length = 16 ∧ ∀ byte ∈ bytes, byte < 256 then some ⟨bytes, valid.1, valid.2⟩
  else none

theorem hexValue_digit : ∀ {digit : Nat}, digit < 16 →
    hexValue (hexDigit digit) = some digit ∧ hexDigit digit ≠ '-' := by
  decide

theorem readHex_pairs {bytes : List Nat} (small : ∀ byte ∈ bytes, byte < 256) :
    readHex (bytes.flatMap hexPair) = some bytes := by
  induction bytes with
  | nil => rfl
  | cons byte rest induction =>
      obtain ⟨first, others⟩ := List.forall_mem_cons.mp small
      have high := (hexValue_digit (by omega : byte / 16 < 16)).1
      have low := (hexValue_digit (by omega : byte % 16 < 16)).1
      rw [List.flatMap_cons, hexPair, List.cons_append, List.cons_append, List.nil_append, readHex,
        high, low, induction others]
      simp only [bind, Option.bind_some, Option.some.injEq, List.cons.injEq, and_true]
      omega

theorem hyphen_pairs {bytes : List Nat} (small : ∀ byte ∈ bytes, byte < 256) :
    ∀ character ∈ bytes.flatMap hexPair, character ≠ '-' := by
  intro character member
  obtain ⟨byte, listed, written⟩ := List.mem_flatMap.mp member
  have bound := small byte listed
  have high := (hexValue_digit (by omega : byte / 16 < 16)).2
  have low := (hexValue_digit (by omega : byte % 16 < 16)).2
  simp only [hexPair, List.mem_cons, List.not_mem_nil, or_false] at written
  obtain rfl | rfl := written
  · exact high
  · exact low

theorem filter_hyphenated {digits : List Char} (plain : ∀ character ∈ digits, character ≠ '-') :
    (hyphenated digits).filter (· ≠ '-') = digits := by
  have kept : ∀ part : List Char, part.Sublist digits → part.filter (· ≠ '-') = part :=
    fun part inside => List.filter_eq_self.mpr fun character member =>
      decide_eq_true (plain character (inside.subset member))
  have dropped : ∀ rest : List Char, ('-' :: rest).filter (· ≠ '-') = rest.filter (· ≠ '-') :=
    fun _ => rfl
  have group : ∀ count, (digits.drop count).take 4 ++ digits.drop (count + 4) =
      digits.drop count := fun count => by
    rw [← List.drop_drop, List.take_append_drop]
  have inner : ∀ count, ((digits.drop count).take 4).Sublist digits := fun count =>
    (List.take_sublist _ _).trans (List.drop_sublist _ _)
  simp only [hyphenated, List.filter_append, dropped, kept _ (List.take_sublist _ _),
    kept _ (List.drop_sublist _ _), kept _ (inner _), List.append_assoc]
  rw [group 16, group 12, group 8, List.take_append_drop]

theorem readUuid_text (identifier : Uuid) : readUuid identifier.text = some identifier := by
  obtain ⟨bytes, length, small⟩ := identifier
  rw [readUuid, Uuid.text, filter_hyphenated (hyphen_pairs small), readHex_pairs small]
  exact dif_pos ⟨length, small⟩

/-! ## Bytes -/

def sextetCharacter (value : Nat) : Char :=
  if value < 26 then Char.ofNat (65 + value)
  else if value < 52 then Char.ofNat (71 + value)
  else if value < 62 then Char.ofNat (value - 4)
  else if value = 62 then '-'
  else '_'

/-- `urlsafe_b64encode(value).rstrip(b"=")` -/
def base64url : List Nat → List Char
  | first :: second :: third :: rest =>
      sextetCharacter (first / 4) :: sextetCharacter (first % 4 * 16 + second / 16) ::
        sextetCharacter (second % 16 * 4 + third / 64) :: sextetCharacter (third % 64) ::
        base64url rest
  | [first, second] =>
      [sextetCharacter (first / 4), sextetCharacter (first % 4 * 16 + second / 16),
        sextetCharacter (second % 16 * 4)]
  | [first] => [sextetCharacter (first / 4), sextetCharacter (first % 4 * 16)]
  | [] => []

example : base64url [104, 105] = "aGk".toList := by rfl

theorem base64url_length : ∀ {bytes : List Nat}, bytes ≠ [] →
    bytes.length < (base64url bytes).length
  | [], nonempty => absurd rfl nonempty
  | [_], _ => by simp [base64url]
  | [_, _], _ => by simp [base64url]
  | _ :: _ :: _ :: [], _ => by simp [base64url]
  | _ :: _ :: _ :: fourth :: rest, _ => by
      have rest := @base64url_length (fourth :: rest) (List.cons_ne_nil _ _)
      simp only [base64url, List.length_cons] at rest ⊢
      omega

def encodedBytes (text : List Char) : List Nat :=
  text.flatMap fun character => (String.utf8EncodeChar character).map UInt8.toNat

theorem encodedBytes_length (text : List Char) : text.length ≤ (encodedBytes text).length := by
  induction text with
  | nil => exact Nat.le_refl 0
  | cons character rest induction =>
      have some := character.utf8Size_pos
      rw [encodedBytes, List.flatMap_cons, List.length_append, List.length_map,
        String.length_utf8EncodeChar, List.length_cons, ← encodedBytes]
      omega

/-- A literal of type `bytea` without an escape. -/
def readBytea (text : List Char) : Option (List Nat) :=
  if '\\' ∈ text then none else some (encodedBytes text)

/-- Bytes are read back from their base64 text only where there are none. -/
theorem readBytea_iff (bytes : List Nat) :
    readBytea (base64url bytes) = some bytes ↔ bytes = [] := by
  constructor
  · intro read
    by_contra nonempty
    unfold readBytea at read
    split at read
    · exact nomatch read
    · have longer := encodedBytes_length (base64url bytes)
      rw [Option.some.inj read] at longer
      exact Nat.not_le_of_lt (base64url_length nonempty) longer
  · rintro rfl
    rfl

end MeridianPostgreSQL.Query
