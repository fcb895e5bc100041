import Ferry.Word
import Mathlib.Algebra.Ring.Nat
import Mathlib.Data.Int.Order.Basic

/-!
# Words and natural numbers

A word that is not negative is the word of a natural number below `2 ^ 63`, and there it is counted
up and down as numbers are. Sums of words are the words of sums for all numbers, since both wrap.
-/

namespace Ferry.Word

/-- A word that is not negative is the word of a number that fits. -/
theorem exists_ofNat {word : Word} (nonneg : 0 ≤ word.toInt) :
    ∃ number, word = Int64.ofNat number ∧ word.toInt = number ∧ number < 2 ^ 63 := by
  obtain ⟨number, toInt_eq⟩ := Int.eq_ofNat_of_zero_le nonneg
  refine ⟨number, ?_, toInt_eq, ?_⟩
  · rw [← Int64.ofInt_toInt word, toInt_eq]
    exact Int64.ofInt_eq_ofNat
  · have below := word.toInt_lt
    rw [toInt_eq] at below
    exact_mod_cast below

theorem ofNat_add_one (number : Nat) : Int64.ofNat number + 1 = Int64.ofNat (number + 1) :=
  (Int64.ofNat_add number 1).symm

theorem ofNat_add_sub (number other : Nat) :
    Int64.ofNat (number + other) - Int64.ofNat other = Int64.ofNat number := by
  rw [Int64.ofNat_add, Int64.add_sub_cancel]

/-- Comparing a word with the word of a number that fits. -/
theorem lt_ofNat_iff {word : Word} {number : Nat} (fits : number < 2 ^ 63) :
    word < Int64.ofNat number ↔ word.toInt < number := by
  rw [Int64.lt_iff_toInt_lt, Int64.toInt_ofNat_of_lt fits]

theorem ofNat_inj {number other : Nat} (fits : number < 2 ^ 63) (fits' : other < 2 ^ 63) :
    Int64.ofNat number = Int64.ofNat other ↔ number = other := by
  rw [← Int64.toInt_inj, Int64.toInt_ofNat_of_lt fits, Int64.toInt_ofNat_of_lt fits',
    Int.ofNat_inj]

/-- So many steps down do not lead from the word to zero. -/
def Beyond (count : Nat) (word : Word) : Prop :=
  ∀ steps ≤ count, word ≠ Int64.ofNat steps

variable {count : Nat} {word : Word}

theorem Beyond.ne_zero (beyond : word.Beyond count) : word ≠ 0 :=
  beyond 0 (Nat.zero_le count)

theorem Beyond.of_succ (beyond : word.Beyond (count + 1)) : word.Beyond count :=
  fun steps le => beyond steps (Nat.le_succ_of_le le)

/-- After one step down there is one step less to make. -/
theorem Beyond.pred (beyond : word.Beyond (count + 1)) : (word - 1).Beyond count := by
  intro steps le same
  apply beyond (steps + 1) (Nat.succ_le_succ le)
  rw [← ofNat_add_one, ← same, Int64.sub_add_cancel]

/-- The way down from a negative word leads to the least word first, and on from the greatest. -/
theorem beyond_of_neg (neg : word.toInt < 0) (fits : count < 2 ^ 63) : word.Beyond count := by
  intro steps le same
  rw [same, Int64.toInt_ofNat_of_lt (Nat.lt_of_le_of_lt le fits)] at neg
  exact absurd neg (Int.not_lt.mpr (Int.natCast_nonneg steps))

end Ferry.Word
