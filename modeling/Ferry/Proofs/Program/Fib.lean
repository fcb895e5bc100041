import Ferry.Proofs.Engine.Prospects
import Ferry.Proofs.Word
import Mathlib.Data.Nat.Fib.Basic

/-!
# The Fibonacci program

For every argument the program comes to an end. Arguments below 2 are returned. For a greater one
the program calls itself for the two numbers before it, and the calls that wait for each other are
as many as the argument says: if the limit allows that many activations, the result is the Fibonacci
number, reduced to a word, and otherwise the first descent exceeds the limit.
-/

namespace Ferry.Program

/-- The only function of the program. -/
def fibFunction : Function := .ofCode "fib" 1 fibCode

variable {limit : Nat} {argument : Word}

private theorem fib_test :
    (fib.under limit).after 3 (.alone 0 [argument] []) =
      some (.alone 3 [argument] [.ofBool (argument < 2)]) :=
  rfl

/-- The body up to the answer, if the test finds the argument below 2. -/
theorem fib_test_small (small : argument < 2) :
    (fib.under limit).after 5 (.alone 0 [argument] []) =
      some (.alone 5 [argument] [argument]) := by
  rw [Engine.after_add 3 2, fib_test, decide_eq_true small]
  rfl

/-- The body up to the first call, if it does not. -/
theorem fib_test_large (large : ¬ argument < 2) :
    (fib.under limit).after 7 (.alone 0 [argument] []) =
      some (.alone 9 [argument] [argument - 1]) := by
  rw [Engine.after_add 3 4, fib_test, decide_eq_false large]
  rfl

/-- An argument below 2 is the answer. -/
theorem fib_small (small : argument < 2) :
    (fib.under limit).EndsFrom (.alone 0 [argument] []) (.completed [argument]) :=
  .of_after (fib_test_small small) (.now rfl)

/-- The two calls of the body. -/
theorem fib_calls_first (room : 1 < limit) :
    (fib.under limit).Calls (.alone 9 [argument] [argument - 1]) 0 fibFunction [argument - 1] [] :=
  ⟨rfl, rfl, rfl, rfl, room⟩

theorem fib_calls_second (room : 1 < limit) (value : Word) :
    (fib.under limit).Calls (.alone 13 [argument] [argument - 2, value]) 0 fibFunction
      [argument - 2] [value] :=
  ⟨rfl, rfl, rfl, rfl, room⟩

/-- Another argument is answered by the sum of the answers to the two calls, for which there is room
for one activation less. -/
theorem fib_large (large : ¬ argument < 2) (room : 1 < limit) {first second : Word}
    (before : (fib.under (limit - 1)).EndsFrom (.alone 0 [argument - 1] []) (.completed [first]))
    (earlier : (fib.under (limit - 1)).EndsFrom (.alone 0 [argument - 2] [])
      (.completed [second])) :
    (fib.under limit).EndsFrom (.alone 0 [argument] []) (.completed [first + second]) := by
  apply Engine.EndsFrom.of_after (fib_test_large large)
  apply (fib_calls_first room).endsFrom_of_completed before
  have between : (fib.under limit).after 3 (.alone 10 [argument] [first]) =
      some (.alone 13 [argument] [argument - 2, first]) := rfl
  apply Engine.EndsFrom.of_after between
  apply (fib_calls_second room first).endsFrom_of_completed earlier
  have added : (fib.under limit).after 1 (.alone 14 [argument] [second, first]) =
      some (.alone 15 [argument] [first + second]) := rfl
  exact .of_after added (.now rfl)

/-- The first call exceeds the limit, if there is no room for it or too little. -/
theorem fib_exceeded (large : ¬ argument < 2)
    (tooDeep : limit ≤ 1 ∨ (fib.under (limit - 1)).EndsFrom (.alone 0 [argument - 1] [])
      (.faulted (.trapped (.callDepthExceeded (limit - 1)) "fib" 9))) :
    (fib.under limit).EndsFrom (.alone 0 [argument] [])
      (.faulted (.trapped (.callDepthExceeded limit) "fib" 9)) := by
  apply Engine.EndsFrom.of_after (fib_test_large large)
  by_cases full : limit ≤ 1
  · have fetches : (Machine.alone 9 [argument] [argument - 1]).Fetches (fib.under limit).module
        fibFunction (.call 0) := Machine.fetches_of_getElem? rfl rfl
    exact Engine.endsFrom_of_full fetches full
  · exact (fib_calls_first (Nat.not_le.mp full)).endsFrom_of_exceeded (tooDeep.resolve_left full)

private theorem not_small {number : Nat} (fits : number + 2 < 2 ^ 63) :
    ¬ Int64.ofNat (number + 2) < 2 := by
  change ¬ Int64.ofNat (number + 2) < Int64.ofNat 2
  rw [Word.lt_ofNat_iff (by decide), Int64.toInt_ofNat_of_lt fits]
  omega

/-- Where the limit allows as many activations as the argument says, the answer is the Fibonacci
number. -/
theorem fib_completes {number : Nat} (fits : number < 2 ^ 63) (room : number ≤ max 1 limit) :
    (fib.under limit).EndsFrom (.alone 0 [Int64.ofNat number] [])
      (.completed [Int64.ofNat number.fib]) := by
  induction number using Nat.twoStepInduction generalizing limit with
  | zero => exact fib_small (by decide)
  | one => exact fib_small (by decide)
  | more number ih ih' =>
      have large := not_small fits
      have sum_eq : Int64.ofNat (number + 2).fib =
          Int64.ofNat (number + 1).fib + Int64.ofNat number.fib := by
        rw [Nat.fib_add_two, Int64.ofNat_add, Int64.add_comm]
      have before : Int64.ofNat (number + 2) - 1 = Int64.ofNat (number + 1) :=
        Word.ofNat_add_sub (number + 1) 1
      have earlier : Int64.ofNat (number + 2) - 2 = Int64.ofNat number :=
        Word.ofNat_add_sub number 2
      rw [sum_eq]
      apply fib_large large (by omega)
      · rw [before]
        exact ih' (by omega) (by omega)
      · rw [earlier]
        exact ih (by omega) (by omega)

/-- Where it does not, the first descent exceeds it. -/
theorem fib_exceeds {number : Nat} (fits : number < 2 ^ 63) (tooDeep : max 1 limit < number) :
    (fib.under limit).EndsFrom (.alone 0 [Int64.ofNat number] [])
      (.faulted (.trapped (.callDepthExceeded limit) "fib" 9)) := by
  induction number generalizing limit with
  | zero => omega
  | succ number ih =>
      obtain ⟨rest, rfl⟩ : ∃ rest, number = rest + 1 := Nat.exists_eq_add_of_le' (by omega)
      have large := not_small fits
      have before : Int64.ofNat (rest + 2) - 1 = Int64.ofNat (rest + 1) :=
        Word.ofNat_add_sub (rest + 1) 1
      apply fib_exceeded large
      rw [before]
      by_cases full : limit ≤ 1
      · exact .inl full
      · exact .inr (ih (by omega) (by omega))

/-- The program halts for every argument and under every limit but zero: below 2 with the argument,
up to the limit with the Fibonacci number reduced to a word, and beyond the limit because it is
exceeded. -/
theorem fib_yields (argument : Word) {limit : Nat} (limit_pos : 1 ≤ limit) :
    (argument.toInt < 2 → fib.Yields limit [argument] (.completed [argument])) ∧
    (2 ≤ argument.toInt → argument.toInt ≤ limit →
      fib.Yields limit [argument] (.completed [Int64.ofNat argument.toInt.toNat.fib])) ∧
    (limit < argument.toInt →
      fib.Yields limit [argument] (.faulted (.trapped (.callDepthExceeded limit) "fib" 9))) := by
  have yields_iff (outcome : Outcome Fault) : fib.Yields limit [argument] outcome ↔
      (fib.under limit).EndsFrom (.alone 0 [argument] []) outcome := by
    have found : fib.module.function? fib.entry = some fibFunction := rfl
    exact yields_iff_endsFrom found rfl
  simp only [yields_iff]
  refine ⟨?_, ?_, ?_⟩
  · intro small
    exact fib_small (Int64.lt_iff_toInt_lt.mpr small)
  · intro large within
    have nonneg : 0 ≤ argument.toInt := Int.le_trans (by decide) large
    obtain ⟨number, rfl, toInt_eq, fits⟩ := Word.exists_ofNat nonneg
    rw [toInt_eq] at within ⊢
    exact fib_completes fits (by omega)
  · intro beyond
    have nonneg : 0 ≤ argument.toInt :=
      Int.le_trans (Int.natCast_nonneg limit) (Int.le_of_lt beyond)
    obtain ⟨number, rfl, toInt_eq, fits⟩ := Word.exists_ofNat nonneg
    rw [toInt_eq] at beyond
    exact fib_exceeds fits (by omega)

/-- The hundredth number does not fit a word; with room for 99 activations there is none. -/
theorem fib_yields_hundred :
    1 ≤ 99 ∧ fib.Yields 100 [100] (.completed [3736710778780434371]) ∧
      fib.Yields 99 [100] (.faulted (.trapped (.callDepthExceeded 99) "fib" 9)) := by
  have reduced : Int64.ofNat (Nat.fib 100) = 3736710778780434371 := by decide +kernel
  have room : 1 ≤ 100 := by decide
  have completes := (fib_yields 100 room).2.1 (by decide) (by decide)
  exact ⟨by decide, reduced ▸ completes, (fib_yields 100 (by decide)).2.2 (by decide)⟩

end Ferry.Program
