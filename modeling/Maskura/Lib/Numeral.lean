import Mathlib.Data.List.TakeWhile
import Mathlib.Data.Nat.Digits.Defs

/-!
Decimal numerals as text.
-/

namespace Maskura.Lib.Numeral

/-- The value of a row of digits. -/
def numeral (digits : List Char) : ℕ := Nat.ofDigitChars 10 digits 0

def AllDigits (digits : List Char) : Prop := ∀ c ∈ digits, c.isDigit = true

theorem numeral_toDigits {n : ℕ} : numeral (Nat.toDigits 10 n) = n :=
  Nat.ofDigitChars_toDigits (by decide) (by decide)

theorem allDigits_toDigits {n : ℕ} : AllDigits (Nat.toDigits 10 n) := fun _ hc =>
  Nat.isDigit_of_mem_toDigits (by decide) (by decide) hc

theorem toDigits_injective {n m : ℕ} (h : Nat.toDigits 10 n = Nat.toDigits 10 m) : n = m := by
  rw [← @numeral_toDigits n, h, numeral_toDigits]

theorem toString_toList (n : ℕ) : (toString n).toList = Nat.toDigits 10 n :=
  String.toList_ofList

end Maskura.Lib.Numeral
