import Mathlib.Algebra.Ring.Nat
import EngineDir.Text.Decimal

/-!
# Numerals

A numeral is written digit after digit, and its value grows with each. The value says
everything about it but how many zeros stand in front.

* `Numeral`: the numerals and their values. `numeral_iff`: how the value is computed.
* `Numeral.eq_of_length`: **numerals of one length and one value are the same.**
* `Numeral.value_eq_iff`: numerals of one value differ by zeros in front.
* `Numeral.padded_eq_iff`: which numerals are written with a least number of digits.
* `Decimal.word?_eq_some_iff`: which texts are read as a word.
-/

namespace EngineDir

/-- The text is a numeral, and stands for the number. -/
inductive Numeral : List Char → Nat → Prop
  | digit {d : Char} (hd : d.isDigit = true) : Numeral [d] (d.toNat - 48)
  | more {ds : List Char} {n : Nat} {d : Char} (h : Numeral ds n) (hd : d.isDigit = true) :
      Numeral (ds ++ [d]) (10 * n + (d.toNat - 48))

theorem isDigit_bounds {d : Char} (h : d.isDigit = true) : 48 ≤ d.toNat ∧ d.toNat ≤ 57 :=
  Char.isDigit_iff_toNat.1 h

namespace Numeral

open Decimal

variable {ds ds' : List Char} {n n' w : Nat}

theorem ne_nil (h : Numeral ds n) : ds ≠ [] := by
  cases h <;> simp

theorem isDigit (h : Numeral ds n) : ∀ d ∈ ds, d.isDigit = true := by
  induction h with
  | digit hd => simpa using hd
  | more h hd ih =>
    intro c hc
    rcases List.mem_append.1 hc with hc | hc
    · exact ih c hc
    · rw [List.mem_singleton.1 hc]
      exact hd

theorem value_eq (h : Numeral ds n) : value ds = n := by
  induction h with
  | digit hd => simp [value, Nat.ofDigitChars_cons]
  | more h hd ih =>
    rw [value] at ih ⊢
    rw [Nat.ofDigitChars_append, ih, Nat.ofDigitChars_cons, Nat.ofDigitChars_nil]
    rfl

/-- More digits behind a numeral. -/
theorem append (h : Numeral ds n) (hds : ∀ d ∈ ds', d.isDigit = true) :
    Numeral (ds ++ ds') (Nat.ofDigitChars 10 ds' n) := by
  induction ds' generalizing ds n with
  | nil => simpa using h
  | cons d ds' ih =>
    have hd : d.isDigit = true := hds d List.mem_cons_self
    have hrest : ∀ c ∈ ds', c.isDigit = true := fun c hc => hds c (List.mem_cons_of_mem _ hc)
    have := ih (h.more hd) hrest
    rwa [List.append_assoc, List.singleton_append] at this

end Numeral

/-- **The numerals are the texts of digits**, and the value is the one that is computed. -/
theorem numeral_iff {ds : List Char} {n : Nat} :
    Numeral ds n ↔ ds ≠ [] ∧ (∀ d ∈ ds, d.isDigit = true) ∧ Decimal.value ds = n := by
  constructor
  · intro h
    exact ⟨h.ne_nil, h.isDigit, h.value_eq⟩
  · rintro ⟨hne, hdig, rfl⟩
    obtain ⟨d, ds', rfl⟩ := List.exists_cons_of_ne_nil hne
    have hone : Numeral [d] (d.toNat - 48) := .digit (hdig d List.mem_cons_self)
    have hall : Numeral (d :: ds') _ := hone.append fun c hc => hdig c (List.mem_cons_of_mem _ hc)
    rwa [hall.value_eq]

namespace Numeral

open Decimal

variable {ds ds' : List Char} {n n' w : Nat}

theorem unique (h : Numeral ds n) (h' : Numeral ds n') : n = n' :=
  h.value_eq.symm.trans h'.value_eq

/-! ## Length and value -/

/-- A value has no more digits than the numeral. -/
theorem lt_pow (h : Numeral ds n) : n < 10 ^ ds.length := by
  induction h with
  | @digit d hd =>
    have hb := isDigit_bounds hd
    simp only [List.length_singleton]
    omega
  | @more ds n d h hd ih =>
    have hb := isDigit_bounds hd
    rw [List.length_append, List.length_singleton, Nat.pow_succ]
    omega

/-- A numeral without zeros in front is as long as its value asks for. -/
theorem pow_le (h : Numeral ds n) (h0 : ds.head? ≠ some '0') : 10 ^ (ds.length - 1) ≤ n := by
  induction h with
  | @digit d hd =>
    have hb := isDigit_bounds hd
    have hne : d.toNat ≠ '0'.toNat := fun he => h0 (congrArg some (Char.toNat_inj.1 he))
    have h48 : '0'.toNat = 48 := rfl
    simp only [List.length_singleton, Nat.sub_self, Nat.pow_zero]
    omega
  | @more ds n d h hd ih =>
    obtain ⟨c, cs, rfl⟩ := List.exists_cons_of_ne_nil h.ne_nil
    have hle := ih h0
    have hlen : (c :: cs ++ [d]).length - 1 = (c :: cs).length - 1 + 1 := by simp
    rw [hlen, Nat.pow_succ]
    omega

/-- **Numerals of one length and one value are the same.** -/
theorem eq_of_length (h : Numeral ds n) (h' : Numeral ds' n) (hlen : ds.length = ds'.length) :
    ds = ds' := by
  have hsame : ∀ (k k' : Nat) {d d' : Char}, d.isDigit = true → d'.isDigit = true →
      10 * k + (d.toNat - 48) = 10 * k' + (d'.toNat - 48) → k = k' ∧ d = d' := by
    intro k k' d d' hd hd' he
    have hb := isDigit_bounds hd
    have hb' := isDigit_bounds hd'
    exact ⟨by omega, Char.toNat_inj.1 (by omega)⟩
  induction h generalizing ds' with
  | @digit d hd =>
    generalize hn : d.toNat - 48 = n at h'
    cases h' with
    | @digit d' hd' =>
      have hlast := hsame 0 0 hd hd' (by omega)
      rw [hlast.2]
    | more h₁ _ =>
      have hpos := List.length_pos_iff.2 h₁.ne_nil
      simp only [List.length_append, List.length_singleton] at hlen
      omega
  | @more ds k d h hd ih =>
    generalize hn : 10 * k + (d.toNat - 48) = n at h'
    cases h' with
    | digit _ =>
      have hpos := List.length_pos_iff.2 h.ne_nil
      simp only [List.length_append, List.length_singleton] at hlen
      omega
    | @more ds₁ k₁ d₁ h₁ hd₁ =>
      obtain ⟨rfl, rfl⟩ := hsame k k₁ hd hd₁ hn
      simp only [List.length_append, List.length_singleton, Nat.add_right_cancel_iff] at hlen
      rw [ih h₁ hlen]

/-! ## Zeros in front -/

theorem cons_zero_iff (hne : ds ≠ []) : Numeral ('0' :: ds) n ↔ Numeral ds n := by
  have hval : value ('0' :: ds) = value ds := by simp [value, Nat.ofDigitChars_cons]
  rw [numeral_iff, numeral_iff, hval]
  simp [hne]

theorem zeros (k : Nat) (h : Numeral ds n) : Numeral (List.replicate k '0' ++ ds) n := by
  induction k with
  | zero => exact h
  | succ k ih =>
    rw [List.replicate_succ, List.cons_append, cons_zero_iff (by simp [h.ne_nil])]
    exact ih

/-- The shorter of two numerals of one value, with zeros in front, is the longer one. -/
theorem eq_zeros (h : Numeral ds n) (h' : Numeral ds' n) (hlen : ds.length ≤ ds'.length) :
    ds' = List.replicate (ds'.length - ds.length) '0' ++ ds := by
  refine h'.eq_of_length (h.zeros _) ?_
  rw [List.length_append, List.length_replicate]
  omega

/-- **Numerals have one value if they differ by zeros in front.** -/
theorem value_eq_iff (h : Numeral ds n) (h' : Numeral ds' n') :
    n = n' ↔ ∃ k, ds = List.replicate k '0' ++ ds' ∨ ds' = List.replicate k '0' ++ ds := by
  constructor
  · rintro rfl
    rcases Nat.le_total ds.length ds'.length with hle | hle
    · exact ⟨_, Or.inr (h.eq_zeros h' hle)⟩
    · exact ⟨_, Or.inl (h'.eq_zeros h hle)⟩
  · rintro ⟨k, rfl | rfl⟩
    · exact h.unique (h'.zeros k)
    · exact (h.zeros k).unique h'

/-! ## Written numerals -/

theorem digits (n : Nat) : Numeral (Decimal.digits n) n :=
  numeral_iff.2 ⟨Nat.toDigits_ne_nil, fun _ => isDigit_of_mem_digits, value_digits n⟩

theorem padded (w n : Nat) : Numeral (Decimal.padded w n) n :=
  numeral_iff.2 ⟨padded_ne_nil w n, fun _ => isDigit_of_mem_padded, value_padded w n⟩

theorem length_padded (w n : Nat) :
    (Decimal.padded w n).length = max w (Decimal.digits n).length := List.length_leftpad

theorem length_digits_le_iff {k : Nat} (hk : 0 < k) :
    (Decimal.digits n).length ≤ k ↔ n < 10 ^ k := Nat.length_toDigits_le_iff (by decide) hk

/-- No zero stands in front of two digits or more. -/
theorem head?_digits (h : 1 < (Decimal.digits n).length) :
    (Decimal.digits n).head? ≠ some '0' := by
  intro h0
  obtain ⟨cs, hcs⟩ : ∃ cs, Decimal.digits n = '0' :: cs := List.head?_eq_some_iff.1 h0
  rw [hcs, List.length_cons] at h
  have hlen : 0 < cs.length := by omega
  -- without it the rest would be a numeral of the same value, and shorter than that allows
  have hrest : Numeral cs n := (cons_zero_iff (List.ne_nil_of_length_pos hlen)).1 (hcs ▸ digits n)
  have hle := (length_digits_le_iff hlen).2 hrest.lt_pow
  rw [hcs, List.length_cons] at hle
  omega

/-- A numeral without zeros in front is as long as its value is written. -/
theorem length_digits (h : Numeral ds n) (h0 : ds.head? ≠ some '0') :
    (Decimal.digits n).length = ds.length := by
  have hpos := List.length_pos_iff.2 h.ne_nil
  have hle : (Decimal.digits n).length ≤ ds.length := (length_digits_le_iff hpos).2 h.lt_pow
  by_cases hone : ds.length = 1
  · have hd := List.length_pos_iff.2 (digits n).ne_nil
    omega
  · have hge : ¬(Decimal.digits n).length ≤ ds.length - 1 := by
      rw [length_digits_le_iff (by omega)]
      exact Nat.not_lt.2 (h.pow_le h0)
    omega

/-- **Which numeral is written with at least `w` digits**: the one with as many, or the one that is
longer and has no zeros in front. -/
theorem padded_eq_iff (h : Numeral ds n) (hw : 0 < w) :
    Decimal.padded w n = ds ↔ ds.length = w ∨ w < ds.length ∧ ds.head? ≠ some '0' := by
  constructor
  · rintro rfl
    rw [length_padded]
    by_cases hlen : (Decimal.digits n).length ≤ w
    · exact Or.inl (by omega)
    · have hsame : Decimal.padded w n = Decimal.digits n := by
        have hzero : w - (Decimal.digits n).length = 0 := by omega
        simp [Decimal.padded, List.leftpad, hzero]
      rw [hsame]
      exact Or.inr ⟨by omega, head?_digits (by omega)⟩
  · intro hform
    refine (padded w n).eq_of_length h ?_
    rw [length_padded]
    rcases hform with hlen | ⟨hlen, h0⟩
    · have hle := (length_digits_le_iff hw).2 (hlen ▸ h.lt_pow)
      omega
    · rw [h.length_digits h0]
      omega

end Numeral

/-- **Which texts are read as a word**: the numerals of its value. -/
theorem Decimal.word?_eq_some_iff {ds : List Char} {w : UInt64} :
    Decimal.word? ds = some w ↔ Numeral ds w.toNat := by
  rw [numeral_iff, Decimal.word?]
  constructor
  · intro h
    split at h
    · rename_i hds
      obtain ⟨hne, hdig, hlt⟩ := hds
      have hw : w.toNat = Decimal.value ds := by
        rw [← Option.some.inj h]
        exact UInt64.toNat_ofNat_of_lt hlt
      exact ⟨hne, List.all_eq_true.1 hdig, hw.symm⟩
    · cases h
  · rintro ⟨hne, hdig, hval⟩
    have hlt : Decimal.value ds < UInt64.size := hval ▸ w.toNat_lt
    rw [if_pos ⟨hne, List.all_eq_true.2 hdig, hlt⟩, hval, UInt64.ofNat_toNat]

end EngineDir
