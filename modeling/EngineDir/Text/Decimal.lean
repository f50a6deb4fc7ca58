import EngineDir.Text.Utf8

/-!
# Decimal numerals

* `Decimal.digits`, `Decimal.padded`: a number in decimal, with as few digits as
  possible or with at least so many.
* `Decimal.value`: the number that a string of digits stands for.
* `Decimal.word?`: reads digits, and nothing but digits, as a 64-bit word.
-/

namespace EngineDir.Decimal

/-- The digits of `n`, the most significant first, without leading zeros. -/
def digits (n : Nat) : List Char := Nat.toDigits 10 n

/-- The digits of `n`, with zeros in front up to `width` digits. -/
def padded (width n : Nat) : List Char := (digits n).leftpad width '0'

/-- The number that `ds` stands for. -/
def value (ds : List Char) : Nat := Nat.ofDigitChars 10 ds 0

/-- Reads `ds` as a word: at least one digit, digits alone, of a value that fits. -/
def word? (ds : List Char) : Option UInt64 :=
  if ds ≠ [] ∧ ds.all Char.isDigit ∧ value ds < UInt64.size then some (UInt64.ofNat (value ds))
  else none

@[simp] theorem value_digits (n : Nat) : value (digits n) = n :=
  Nat.ofDigitChars_toDigits (by decide) (by decide)

theorem isDigit_of_mem_digits {n : Nat} {c : Char} (h : c ∈ digits n) : c.isDigit :=
  Nat.isDigit_of_mem_toDigits (by decide) (by decide) h

@[simp] theorem value_padded (width n : Nat) : value (padded width n) = n := by
  simp only [padded, List.leftpad, value, Nat.ofDigitChars_append, Nat.ofDigitChars_replicate_zero,
    Nat.mul_zero]
  exact value_digits n

theorem isDigit_of_mem_padded {width n : Nat} {c : Char} (h : c ∈ padded width n) : c.isDigit := by
  simp only [padded, List.leftpad, List.mem_append, List.mem_replicate] at h
  rcases h with ⟨_, rfl⟩ | h
  · rfl
  · exact isDigit_of_mem_digits h

theorem padded_ne_nil (width n : Nat) : padded width n ≠ [] := by
  simp [padded, List.leftpad, digits, Nat.toDigits_ne_nil]

/-- Reading a written word gives it back, whatever the width. -/
theorem word?_padded (width : Nat) (w : UInt64) : word? (padded width w.toNat) = some w := by
  have hall : (padded width w.toNat).all Char.isDigit = true :=
    List.all_eq_true.2 fun _ => isDigit_of_mem_padded
  simp [word?, padded_ne_nil, hall, w.toNat_lt]

end EngineDir.Decimal
