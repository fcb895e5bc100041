import Ferry.Proofs.Engine.Length
import Ferry.Proofs.Engine.Prospects
import Ferry.Proofs.Word
import Mathlib.Algebra.BigOperators.Intervals

/-!
# The summing program

At the head of the loop the counter is one more than the last number that has been added. A round
adds the counter and counts on, and the loop is left as soon as the counter is greater than the
argument. This comes to pass for every argument but the greatest word, which no counter exceeds:
there the counter wraps, and the program goes round for ever.
-/

namespace Ferry.Program

/-- The only function of the program. -/
def sumFunction : Function := (Function.ofCode "sum" 1 sumCode).withExtraLocals 2

/-- The head of the loop, with the counter and what has been collected. -/
def sumHead (argument counter collected : Word) : Machine :=
  .alone 2 [argument, counter, collected] []

variable {limit : Nat} {argument counter collected : Word}

theorem sum_begin :
    (sum.under limit).after 2 (.start 0 sumFunction [argument]) = some (sumHead argument 1 0) :=
  rfl

private theorem sum_test :
    (sum.under limit).after 3 (sumHead argument counter collected) =
      some (.alone 5 [argument, counter, collected] [.ofBool (argument < counter)]) :=
  rfl

/-- The loop is left with what has been collected. -/
theorem sum_leave (beyond : argument < counter) :
    (sum.under limit).EndsFrom (sumHead argument counter collected) (.completed [collected]) := by
  have left : (sum.under limit).after 5 (sumHead argument counter collected) =
      some (.alone 16 [argument, counter, collected] [collected]) := by
    rw [Engine.after_add 3 2, sum_test, decide_eq_true beyond]
    rfl
  exact .of_after left (.now rfl)

/-- A round of the loop. -/
theorem sum_round (within : ¬ argument < counter) :
    (sum.under limit).after 13 (sumHead argument counter collected) =
      some (sumHead argument (counter + 1) (collected + counter)) := by
  rw [Engine.after_add 3 10, sum_test, decide_eq_false within]
  rfl

/-- The head of the loop when the numbers below the counter have been added. -/
def sumHeadAt (argument : Word) (counter : Nat) : Machine :=
  sumHead argument (Int64.ofNat counter) (Int64.ofNat (∑ number ∈ Finset.range counter, number))

theorem sumHeadAt_succ (argument : Word) (counter : Nat) :
    sumHeadAt argument (counter + 1) =
      sumHead argument (Int64.ofNat counter + 1)
        (Int64.ofNat (∑ number ∈ Finset.range counter, number) + Int64.ofNat counter) := by
  rw [sumHeadAt, Finset.sum_range_succ, Int64.ofNat_add _ counter, Word.ofNat_add_one]

/-- So many rounds before the counter exceeds the argument, the program is going to end with the
whole sum. -/
theorem sum_endsFrom {last counter rounds : Nat} (fits : last + 1 < 2 ^ 63)
    (left : counter + rounds = last + 1) :
    (sum.under limit).EndsFrom (sumHeadAt (Int64.ofNat last) counter)
      (.completed [Int64.ofNat (∑ number ∈ Finset.range (last + 1), number)]) := by
  have last_eq : (Int64.ofNat last).toInt = last := Int64.toInt_ofNat_of_lt (Nat.lt_of_succ_lt fits)
  induction rounds generalizing counter with
  | zero =>
      obtain rfl : counter = last + 1 := left
      apply sum_leave
      rw [Word.lt_ofNat_iff fits, last_eq]
      exact Int.ofNat_lt.mpr (Nat.lt_succ_self last)
  | succ rounds ih =>
      have within : ¬ Int64.ofNat last < Int64.ofNat counter := by
        rw [Word.lt_ofNat_iff (by omega), last_eq]
        omega
      apply Engine.EndsFrom.of_after (sum_round within)
      rw [← sumHeadAt_succ]
      exact ih (by omega)

/-- No counter exceeds the greatest word. -/
theorem sum_endless : (sum.under limit).Endless (sumHead Int64.maxValue counter collected) := by
  let heads (head : Machine) : Prop :=
    ∃ counter collected, head = sumHead Int64.maxValue counter collected
  have at_head : heads (sumHead Int64.maxValue counter collected) := ⟨counter, collected, rfl⟩
  apply Engine.endless_of_rounds _ at_head
  rintro _ ⟨counter, collected, rfl⟩
  have within : ¬ Int64.maxValue < counter := by
    rw [Int64.lt_iff_toInt_lt]
    exact Int.not_lt.mpr counter.toInt_le
  exact ⟨12, _, sum_round within, _, _, rfl⟩

/-- The sum of the first numbers, as a word. -/
theorem ofNat_sum_range (last : Nat) :
    Int64.ofNat (∑ number ∈ Finset.range (last + 1), number) =
      Int64.ofInt ((last : Int) * (last + 1) / 2) := by
  have closed : ((last : Int) * (last + 1) / 2) = ((last + 1) * last / 2 : Nat) := by
    push_cast
    rw [mul_comm]
  rw [Finset.sum_range_id, Nat.add_sub_cancel, closed, Int64.ofInt_eq_ofNat]

/-- Under every limit the program halts for every argument but the greatest word: below 1 with zero,
and otherwise with the sum of the numbers up to the argument, reduced to a word. For the greatest
word it executes any number of instructions, and never comes to an outcome. -/
theorem sum_yields (argument : Word) (limit : Nat) :
    (argument.toInt < 1 → sum.Yields limit [argument] (.completed [0])) ∧
    (1 ≤ argument.toInt → argument ≠ Int64.maxValue →
      sum.Yields limit [argument]
        (.completed [Int64.ofInt (argument.toInt * (argument.toInt + 1) / 2)])) ∧
    (argument = Int64.maxValue →
      (∀ count, ∃ machine, (sum.under limit).StandsAt
        ((sum.under limit).call sum.entry [argument]) count machine) ∧
      ∀ outcome, ¬ sum.Yields limit [argument] outcome) := by
  have yields_iff (outcome : Outcome Fault) : sum.Yields limit [argument] outcome ↔
      (sum.under limit).EndsFrom (.start 0 sumFunction [argument]) outcome := by
    have found : sum.module.function? sum.entry = some sumFunction := rfl
    exact yields_iff_endsFrom found rfl
  simp only [yields_iff]
  refine ⟨?_, ?_, ?_⟩
  · intro small
    apply Engine.EndsFrom.of_after sum_begin
    apply sum_leave
    exact Int64.lt_iff_toInt_lt.mpr small
  · intro positive notGreatest
    have nonneg : 0 ≤ argument.toInt := Int.le_of_lt positive
    obtain ⟨last, rfl, toInt_eq, fits⟩ := Word.exists_ofNat nonneg
    have notLast : last ≠ 2 ^ 63 - 1 := by
      rintro rfl
      exact notGreatest rfl
    rw [toInt_eq, ← ofNat_sum_range]
    exact .of_after sum_begin (sum_endsFrom (by omega) (Nat.add_comm 1 last))
  · rintro rfl
    have endless : (sum.under limit).Endless (.start 0 sumFunction [Int64.maxValue]) :=
      .of_after sum_begin sum_endless
    constructor
    · intro count
      obtain ⟨machine, passed⟩ := endless count
      exact ⟨machine, _, rfl, passed⟩
    · exact endless.not_endsFrom

/-- For the word before the greatest one, the loop is left when its counter is the greatest one,
after more rounds than anybody waits for. -/
theorem sum_yields_edges :
    sum.Yields 0 [-5] (.completed [0]) ∧
      sum.Yields 0 [Int64.maxValue - 1] (.completed [4611686018427387905]) ∧
      ¬ sum.Yields 0 [Int64.maxValue] (.completed [0]) :=
  ⟨(sum_yields (-5) 0).1 (by decide),
    (sum_yields (Int64.maxValue - 1) 0).2.1 (by decide) (by decide),
    ((sum_yields Int64.maxValue 0).2.2 rfl).2 _⟩

end Ferry.Program
