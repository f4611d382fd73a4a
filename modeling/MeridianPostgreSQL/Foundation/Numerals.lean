import Mathlib.Algebra.Group.Nat.Defs
import Mathlib.Tactic.Common

/-! # Numerals

Decimal digits of a fixed width, and readers that take digits and characters
from the front of a text. What is printed is read back, whatever follows it. -/

namespace MeridianPostgreSQL.Numerals

/-! ## Printing -/

/-- The last digits of a number. -/
def padded : Nat → Nat → List Char
  | 0, _ => []
  | width + 1, number => padded width (number / 10) ++ [(number % 10).digitChar]

@[simp] theorem padded_length (width number : Nat) : (padded width number).length = width := by
  induction width generalizing number with
  | zero => rfl
  | succ width induction => simp [padded, induction]

theorem isDigit_digitChar : ∀ {digit : Nat}, digit < 10 → digit.digitChar.isDigit = true := by
  decide

theorem padded_digits {width number : Nat} :
    ∀ character ∈ padded width number, character.isDigit = true := by
  induction width generalizing number with
  | zero => exact nofun
  | succ width induction =>
      exact List.forall_mem_append.mpr ⟨induction,
        List.forall_mem_singleton.mpr (isDigit_digitChar (Nat.mod_lt _ (by decide)))⟩

theorem ofDigitChars_padded (width number : Nat) :
    Nat.ofDigitChars 10 (padded width number) 0 = number % 10 ^ width := by
  induction width generalizing number with
  | zero => simp [padded, Nat.mod_one]
  | succ width induction =>
      have digit : number % 10 < 10 := Nat.mod_lt _ (by decide)
      rw [padded, Nat.ofDigitChars_append, induction,
        Nat.ofDigitChars_cons_digitChar_of_lt_ten digit, Nat.ofDigitChars_nil, Nat.pow_succ,
        Nat.mul_comm (10 ^ width) 10, Nat.mod_mul, Nat.add_comm]

theorem padded_eq {width left right : Nat} (same : padded width left = padded width right) :
    left % 10 ^ width = right % 10 ^ width := by
  rw [← ofDigitChars_padded, ← ofDigitChars_padded, same]

/-! ## Reading -/

def takeChar (character : Char) : List Char → Option (List Char)
  | first :: rest => if first = character then some rest else none
  | [] => none

@[simp] theorem takeChar_cons (character : Char) (rest : List Char) :
    takeChar character (character :: rest) = some rest := if_pos rfl

/-- Digits of a fixed width. -/
def takeDigits (width : Nat) (text : List Char) : Option (Nat × List Char) :=
  if (text.take width).length = width ∧ (text.take width).all Char.isDigit = true then
    some (Nat.ofDigitChars 10 (text.take width) 0, text.drop width)
  else none

theorem takeDigits_padded {width number : Nat} (small : number < 10 ^ width)
    (rest : List Char) : takeDigits width (padded width number ++ rest) = some (number, rest) := by
  have front : (padded width number ++ rest).take width = padded width number :=
    List.take_left' (padded_length width number)
  have back : (padded width number ++ rest).drop width = rest :=
    List.drop_left' (padded_length width number)
  rw [takeDigits, front, back, if_pos ⟨padded_length width number,
    List.all_eq_true.mpr padded_digits⟩, ofDigitChars_padded, Nat.mod_eq_of_lt small]

theorem takeDigits_all {width number : Nat} (small : number < 10 ^ width) :
    takeDigits width (padded width number) = some (number, []) := by
  have taken := takeDigits_padded small []
  rwa [List.append_nil] at taken

/-- As many digits as there are, and at least one. -/
def takeNumber (text : List Char) : Option (List Char × List Char) :=
  if text.takeWhile Char.isDigit = [] then none
  else some (text.takeWhile Char.isDigit, text.dropWhile Char.isDigit)

theorem takeNumber_digits {digits rest : List Char} (some : digits ≠ [])
    (all : ∀ character ∈ digits, character.isDigit = true)
    (ends : rest.takeWhile Char.isDigit = []) :
    takeNumber (digits ++ rest) = Option.some (digits, rest) := by
  have front : (digits ++ rest).takeWhile Char.isDigit = digits := by
    rw [List.takeWhile_append_of_pos all, ends, List.append_nil]
  have back : (digits ++ rest).dropWhile Char.isDigit = rest := by
    rw [List.dropWhile_append_of_pos all]
    have whole := List.takeWhile_append_dropWhile (p := Char.isDigit) (l := rest)
    rwa [ends, List.nil_append] at whole
  rw [takeNumber, front, back, if_neg some]

end MeridianPostgreSQL.Numerals
