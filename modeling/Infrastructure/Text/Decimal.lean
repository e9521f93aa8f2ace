import Mathlib.Algebra.Group.Int.Defs
import Mathlib.Algebra.Group.Nat.Defs
import Mathlib.Data.List.Basic

/-! Decimal text and its reading. -/

namespace Infrastructure.Text

open Nat

theorem digit_bounds {digit : Char} (isDigit : digit.isDigit = true) :
    48 ≤ digit.toNat ∧ digit.toNat ≤ 57 := by
  simp only [Char.isDigit, Bool.and_eq_true, decide_eq_true_eq] at isDigit
  have lower := isDigit.1
  have upper := isDigit.2
  rw [ge_iff_le, UInt32.le_iff_toNat_le] at lower
  rw [UInt32.le_iff_toNat_le] at upper
  exact ⟨lower, upper⟩

/-- `strconv.Atoi`: an optional sign and decimal digits that fit 64 bits. -/
def atoi (text : List Char) : Option Int :=
  let (sign, digits) : Int × List Char :=
    match text with
    | '-' :: rest => (-1, rest)
    | '+' :: rest => (1, rest)
    | rest => (1, rest)
  if digits = [] ∨ digits.any (fun digit => !digit.isDigit) then none
  else
    let val := sign * (Nat.ofDigitChars 10 digits 0 : Int)
    if -2 ^ 63 ≤ val ∧ val < 2 ^ 63 then some val else none

theorem atoi_toDigits {number : Nat} (small : number < 2 ^ 63) :
    atoi (Nat.toDigits 10 number) = some (number : Int) := by
  have digits (digit : Char) (mem : digit ∈ Nat.toDigits 10 number) : digit.isDigit = true :=
    isDigit_of_mem_toDigits (by omega) (by omega) mem
  have plain : (Nat.toDigits 10 number).any (fun digit => !digit.isDigit) = false := by
    simpa using digits
  have val := ofDigitChars_toDigits (b := 10) (n := number) (by omega) (by omega)
  have fits : -2 ^ 63 ≤ (number : Int) ∧ (number : Int) < 2 ^ 63 := by omega
  have ne : Nat.toDigits 10 number ≠ [] := toDigits_ne_nil
  -- neither sign is a digit, so the text is read without one
  have unsigned (sign : Char) (isSign : sign.isDigit = false) (rest : List Char) :
      Nat.toDigits 10 number ≠ sign :: rest := by
    intro eq
    have digit := digits sign (eq ▸ List.mem_cons_self)
    rw [isSign] at digit
    cases digit
  rw [atoi]
  · simp only [ne, plain, val, false_or, Bool.false_eq_true, if_false, Int.one_mul]
    exact if_pos fits
  · exact unsigned '-' (by decide)
  · exact unsigned '+' (by decide)

end Infrastructure.Text
