import Ferry.Proofs.Engine.Prospects
import Ferry.Proofs.Word
import Mathlib.Computability.Ackermann

/-!
# The Ackermann program

The program is first compared with a recursion on words that has room for a number of activations
beyond the first: the program gives what the recursion gives, and exceeds its limit where the
recursion has none. The recursion is then compared with mathematics. Where both arguments are
natural numbers and the first is not zero, a value is the Ackermann number, and no greater than the
number of activations, so nothing wraps. Where an argument is so far from zero that it cannot be
counted down to it with the room there is, there is no value: this covers all negative arguments,
because the way down from them wraps and is then long.
-/

namespace Ferry.Program

/-- The only function of the program. -/
def ackermannFunction : Function := .ofCode "ackermann" 2 ackermannCode

/-- The recursion of the program, with room for so many activations beyond the first. -/
def ackermannWithin : (room : Nat) → Word → Word → Option Word
  | 0, m, n => if m = 0 then some (n + 1) else none
  | room + 1, m, n =>
      if m = 0 then some (n + 1)
      else if n = 0 then ackermannWithin room (m - 1) 1
      else (ackermannWithin room m (n - 1)).bind (ackermannWithin room (m - 1))

section Recursion

variable {room : Nat} {m n : Word}

theorem ackermannWithin_zero (room : Nat) (n : Word) :
    ackermannWithin room 0 n = some (n + 1) := by
  cases room <;> rfl

theorem ackermannWithin_noRoom (nonzero : m ≠ 0) : ackermannWithin 0 m n = none :=
  if_neg nonzero

theorem ackermannWithin_one (nonzero : m ≠ 0) :
    ackermannWithin (room + 1) m 0 = ackermannWithin room (m - 1) 1 := by
  rw [ackermannWithin, if_neg nonzero, if_pos rfl]

theorem ackermannWithin_nested (nonzero : m ≠ 0) (nonzero' : n ≠ 0) :
    ackermannWithin (room + 1) m n =
      (ackermannWithin room m (n - 1)).bind (ackermannWithin room (m - 1)) := by
  rw [ackermannWithin, if_neg nonzero, if_neg nonzero']

end Recursion

section Body

variable {limit : Nat} {m n : Word}

/-- If the first argument is zero, the answer is one more than the second. -/
theorem ackermann_zero :
    (ackermann.under limit).EndsFrom (.alone 0 [0, n] []) (.completed [n + 1]) := by
  have added : (ackermann.under limit).after 6 (.alone 0 [0, n] []) =
      some (.alone 6 [0, n] [n + 1]) := rfl
  exact .of_after added (.now rfl)

theorem ackermann_nonzero (nonzero : m ≠ 0) :
    (ackermann.under limit).after 3 (.alone 0 [m, n] []) = some (.alone 7 [m, n] []) := by
  have tested : (ackermann.under limit).after 2 (.alone 0 [m, n] []) =
      some (.alone 2 [m, n] [.ofBool (m == 0)]) := rfl
  rw [Engine.after_add 2 1, tested, beq_eq_false_iff_ne.mpr nonzero]
  rfl

/-- The body up to the call that replaces the one for `m` and zero. -/
theorem ackermann_one (nonzero : m ≠ 0) :
    (ackermann.under limit).after 10 (.alone 0 [m, 0] []) =
      some (.alone 14 [m, 0] [1, m - 1]) := by
  rw [Engine.after_add 3 7, ackermann_nonzero nonzero]
  rfl

/-- The body up to the inner of the two nested calls. -/
theorem ackermann_nested (nonzero : m ≠ 0) (nonzero' : n ≠ 0) :
    (ackermann.under limit).after 13 (.alone 0 [m, n] []) =
      some (.alone 23 [m, n] [n - 1, m, m - 1]) := by
  have tested : (ackermann.under limit).after 2 (.alone 7 [m, n] []) =
      some (.alone 9 [m, n] [.ofBool (n == 0)]) := rfl
  rw [Engine.after_add 3 10, ackermann_nonzero nonzero, Option.bind_some, Engine.after_add 2 8,
    tested, beq_eq_false_iff_ne.mpr nonzero']
  rfl

/-- The three calls of the body. -/
theorem ackermann_calls_one (room : 1 < limit) :
    (ackermann.under limit).Calls (.alone 14 [m, n] [1, m - 1]) 0 ackermannFunction [m - 1, 1] [] :=
  ⟨rfl, rfl, rfl, rfl, room⟩

theorem ackermann_calls_inner (room : 1 < limit) :
    (ackermann.under limit).Calls (.alone 23 [m, n] [n - 1, m, m - 1]) 0 ackermannFunction
      [m, n - 1] [m - 1] :=
  ⟨rfl, rfl, rfl, rfl, room⟩

theorem ackermann_calls_outer (room : 1 < limit) (value : Word) :
    (ackermann.under limit).Calls (.alone 24 [m, n] [value, m - 1]) 0 ackermannFunction
      [m - 1, value] [] :=
  ⟨rfl, rfl, rfl, rfl, room⟩

end Body

/-- The computation for two arguments finds its limit exceeded. -/
def AckermannExceeds (limit : Nat) (m n : Word) : Prop :=
  ∃ pc, (ackermann.under limit).EndsFrom (.alone 0 [m, n] [])
    (.faulted (.trapped (.callDepthExceeded limit) "ackermann" pc))

/-- The program gives what the recursion gives, and exceeds its limit where the recursion has no
value. -/
structure AckermannFollows (room : Nat) (m n : Word) : Prop where
  completes : ∀ value, ackermannWithin room m n = some value →
    (ackermann.under (room + 1)).EndsFrom (.alone 0 [m, n] []) (.completed [value])
  exceeds : ackermannWithin room m n = none → AckermannExceeds (room + 1) m n

section Following

variable {room : Nat} {m n : Word}

theorem ackermannFollows_zero (room : Nat) (n : Word) : AckermannFollows room 0 n := by
  constructor
  · intro value given
    rw [ackermannWithin_zero] at given
    cases given
    exact ackermann_zero
  · intro missing
    rw [ackermannWithin_zero] at missing
    cases missing

/-- Under a limit of one there is no room for the first call. -/
theorem ackermannFollows_noRoom (nonzero : m ≠ 0) : AckermannFollows 0 m n := by
  constructor
  · intro value given
    rw [ackermannWithin_noRoom nonzero] at given
    cases given
  · intro _
    by_cases zero : n = 0
    · subst zero
      have fetches : (Machine.alone 14 [m, 0] [1, m - 1]).Fetches (ackermann.under 1).module
          ackermannFunction (.call 0) := Machine.fetches_of_getElem? rfl rfl
      exact ⟨14, .of_after (ackermann_one nonzero)
        (Engine.endsFrom_of_full fetches (Nat.le_refl 1))⟩
    · have fetches : (Machine.alone 23 [m, n] [n - 1, m, m - 1]).Fetches (ackermann.under 1).module
          ackermannFunction (.call 0) := Machine.fetches_of_getElem? rfl rfl
      exact ⟨23, .of_after (ackermann_nested nonzero zero)
        (Engine.endsFrom_of_full fetches (Nat.le_refl 1))⟩

/-- There is room for a call if the recursion has some left. -/
private theorem one_lt_limit (room : Nat) : 1 < room + 1 + 1 :=
  Nat.succ_lt_succ (Nat.succ_pos room)

theorem ackermannFollows_one (nonzero : m ≠ 0) (follows : AckermannFollows room (m - 1) 1) :
    AckermannFollows (room + 1) m 0 := by
  have begun := @ackermann_one (room + 1 + 1) m nonzero
  have calls := ackermann_calls_one (m := m) (n := 0) (one_lt_limit room)
  constructor
  · intro value given
    rw [ackermannWithin_one nonzero] at given
    have completed := follows.completes value given
    exact .of_after begun (calls.endsFrom_of_completed completed (.now rfl))
  · intro missing
    rw [ackermannWithin_one nonzero] at missing
    rcases follows.exceeds missing with ⟨pc, exceeded⟩
    exact ⟨pc, .of_after begun (calls.endsFrom_of_exceeded exceeded)⟩

theorem ackermannFollows_nested (nonzero : m ≠ 0) (nonzero' : n ≠ 0)
    (inside : AckermannFollows room m (n - 1))
    (outside : ∀ between, AckermannFollows room (m - 1) between) :
    AckermannFollows (room + 1) m n := by
  have begun := @ackermann_nested (room + 1 + 1) m n nonzero nonzero'
  have inner := ackermann_calls_inner (m := m) (n := n) (one_lt_limit room)
  have outer := ackermann_calls_outer (m := m) (n := n) (one_lt_limit room)
  constructor
  · intro value given
    rw [ackermannWithin_nested nonzero nonzero'] at given
    obtain ⟨between, given, given'⟩ := Option.bind_eq_some_iff.mp given
    apply Engine.EndsFrom.of_after begun
    apply inner.endsFrom_of_completed (inside.completes between given)
    have completed := (outside between).completes value given'
    exact (outer between).endsFrom_of_completed completed (.now rfl)
  · intro missing
    rw [ackermannWithin_nested nonzero nonzero'] at missing
    cases given : ackermannWithin room m (n - 1) with
    | none =>
        rcases inside.exceeds given with ⟨pc, exceeded⟩
        exact ⟨pc, .of_after begun (inner.endsFrom_of_exceeded exceeded)⟩
    | some between =>
        rw [given] at missing
        rcases (outside between).exceeds missing with ⟨pc, exceeded⟩
        refine ⟨pc, ?_⟩
        apply Engine.EndsFrom.of_after begun
        apply inner.endsFrom_of_completed (inside.completes between given)
        exact (outer between).endsFrom_of_exceeded exceeded

theorem ackermann_follows (room : Nat) (m n : Word) : AckermannFollows room m n := by
  induction room generalizing m n with
  | zero =>
      by_cases zero : m = 0
      · subst zero
        exact ackermannFollows_zero 0 n
      · exact ackermannFollows_noRoom zero
  | succ room ih =>
      by_cases zero : m = 0
      · subst zero
        exact ackermannFollows_zero (room + 1) n
      by_cases zero' : n = 0
      · subst zero'
        exact ackermannFollows_one zero (ih (m - 1) 1)
      · exact ackermannFollows_nested zero zero' (ih m (n - 1)) (ih (m - 1))

end Following

section Values

private theorem ofNat_succ_ne_zero {number : Nat} (fits : number + 1 < 2 ^ 63) :
    Int64.ofNat (number + 1) ≠ 0 := by
  change Int64.ofNat (number + 1) ≠ Int64.ofNat 0
  rw [Ne, Word.ofNat_inj fits (by decide)]
  exact Nat.succ_ne_zero number

/-- For natural numbers the recursion gives the Ackermann number or nothing. A value is no greater
than the number of activations there may be, because the last call of an activation adds one to a
value at most, and is itself one activation more. -/
theorem ackermannWithin_eq_ack {room m n : Nat} (room_fits : room + 1 < 2 ^ 63)
    (m_fits : m + 1 < 2 ^ 63) (n_fits : n < 2 ^ 63) {value : Word}
    (given : ackermannWithin room (Int64.ofNat (m + 1)) (Int64.ofNat n) = some value) :
    value = Int64.ofNat (ack (m + 1) n) ∧ ack (m + 1) n ≤ room + 1 := by
  induction room generalizing m n value with
  | zero =>
      rw [ackermannWithin_noRoom (ofNat_succ_ne_zero m_fits)] at given
      cases given
  | succ room ih =>
      have pred_eq : Int64.ofNat (m + 1) - 1 = Int64.ofNat m := Word.ofNat_add_sub m 1
      -- The call with the smaller first argument, which is the last one in both cases.
      have last {between : Nat} (le : between ≤ room + 1)
          (given : ackermannWithin room (Int64.ofNat m) (Int64.ofNat between) = some value) :
          value = Int64.ofNat (ack m between) ∧ ack m between ≤ room + 1 + 1 := by
        cases m with
        | zero =>
            have answer : value = Int64.ofNat between + 1 :=
              Option.some.inj (given.symm.trans (ackermannWithin_zero room _))
            rw [answer, ack_zero]
            exact ⟨Word.ofNat_add_one between, Nat.succ_le_succ le⟩
        | succ m =>
            rcases ih (by omega) (by omega) (by omega) given with ⟨value_eq, value_le⟩
            exact ⟨value_eq, Nat.le_succ_of_le value_le⟩
      cases n with
      | zero =>
          change ackermannWithin (room + 1) (Int64.ofNat (m + 1)) 0 = _ at given
          rw [ackermannWithin_one (ofNat_succ_ne_zero m_fits), pred_eq] at given
          rw [ack_succ_zero]
          exact last (Nat.le_add_left 1 room) given
      | succ n =>
          have pred_eq' : Int64.ofNat (n + 1) - 1 = Int64.ofNat n := Word.ofNat_add_sub n 1
          rw [ackermannWithin_nested (ofNat_succ_ne_zero m_fits) (ofNat_succ_ne_zero n_fits),
            pred_eq, pred_eq'] at given
          obtain ⟨between, given, given'⟩ := Option.bind_eq_some_iff.mp given
          rcases ih (by omega) m_fits (by omega) given with ⟨rfl, between_le⟩
          rw [ack_succ_succ]
          exact last between_le given'

/-- Where one of the arguments cannot be counted down to zero with the room there is, there is no
value: each call counts down one of them at most. -/
theorem ackermannWithin_eq_none {room : Nat} {m n : Word} (nonzero : m ≠ 0)
    (far : m.Beyond room ∨ n.Beyond room) : ackermannWithin room m n = none := by
  induction room generalizing m n with
  | zero => exact ackermannWithin_noRoom nonzero
  | succ room ih =>
      by_cases zero : n = 0
      · subst zero
        have far_m : m.Beyond (room + 1) := far.resolve_right fun far_n => far_n.ne_zero rfl
        rw [ackermannWithin_one nonzero]
        refine ih ?_ (.inl far_m.pred)
        intro last
        exact far_m 1 (Nat.le_add_left 1 room) (by rw [← Int64.sub_add_cancel m 1, last]; rfl)
      · have missing : ackermannWithin room m (n - 1) = none :=
          ih nonzero (far.imp Word.Beyond.of_succ Word.Beyond.pred)
        rw [ackermannWithin_nested nonzero zero, missing]
        rfl

end Values

/-- Under the limit that an engine has by default the program halts for all arguments. If the first
one is zero, it gives the second one plus one, which may wrap. If both are natural numbers, it gives
exactly the Ackermann number or exceeds the limit. In all other cases it exceeds the limit. -/
theorem ackermann_yields (m n : Word) :
    (m = 0 → ackermann.Yields 10000 [m, n] (.completed [n + 1])) ∧
    (1 ≤ m.toInt → 0 ≤ n.toInt →
      (∃ value, ackermann.Yields 10000 [m, n] (.completed [value]) ∧
        value.toInt = ack m.toInt.toNat n.toInt.toNat) ∨
      ∃ pc, ackermann.Yields 10000 [m, n]
        (.faulted (.trapped (.callDepthExceeded 10000) "ackermann" pc))) ∧
    (m.toInt < 0 ∨ 1 ≤ m.toInt ∧ n.toInt < 0 →
      ∃ pc, ackermann.Yields 10000 [m, n]
        (.faulted (.trapped (.callDepthExceeded 10000) "ackermann" pc))) := by
  have yields_iff (outcome : Outcome Fault) : ackermann.Yields 10000 [m, n] outcome ↔
      (ackermann.under 10000).EndsFrom (.alone 0 [m, n] []) outcome := by
    have found : ackermann.module.function? ackermann.entry = some ackermannFunction := rfl
    exact yields_iff_endsFrom found rfl
  simp only [yields_iff]
  have follows : AckermannFollows 9999 m n := ackermann_follows 9999 m n
  refine ⟨?_, ?_, ?_⟩
  · rintro rfl
    exact ackermann_zero
  · intro m_pos n_nonneg
    cases given : ackermannWithin 9999 m n with
    | none => exact .inr (follows.exceeds given)
    | some value =>
        refine .inl ⟨value, follows.completes value given, ?_⟩
        have m_nonneg : 0 ≤ m.toInt := Int.le_of_lt m_pos
        obtain ⟨m, rfl, m_eq, m_fits⟩ := Word.exists_ofNat m_nonneg
        obtain ⟨n, rfl, n_eq, n_fits⟩ := Word.exists_ofNat n_nonneg
        obtain ⟨m, rfl⟩ : ∃ less, m = less + 1 := Nat.exists_eq_add_of_le' (by omega)
        rcases ackermannWithin_eq_ack (by decide) m_fits n_fits given with ⟨rfl, ack_le⟩
        rw [m_eq, n_eq]
        exact Int64.toInt_ofNat_of_lt (Nat.lt_of_le_of_lt ack_le (by decide))
  · intro negative
    have nonzero : m ≠ 0 := by
      rintro rfl
      rcases negative with m_neg | ⟨m_pos, -⟩
      · exact absurd m_neg (by decide)
      · exact absurd m_pos (by decide)
    apply follows.exceeds
    apply ackermannWithin_eq_none nonzero
    rcases negative with m_neg | ⟨-, n_neg⟩
    · exact .inl (Word.beyond_of_neg m_neg (by decide))
    · exact .inr (Word.beyond_of_neg n_neg (by decide))

/-- With 2 and 0 the program gives 3. With 0 and the greatest word it wraps. From the least word one
step down leads to the greatest one, which is not on a way to zero that ends within the limit. -/
theorem ackermann_yields_edges :
    ackermann.Yields 10000 [2, 0] (.completed [3]) ∧
      ackermann.Yields 10000 [0, Int64.maxValue] (.completed [Int64.minValue]) ∧
      ∃ pc, ackermann.Yields 10000 [Int64.minValue, 0]
        (.faulted (.trapped (.callDepthExceeded 10000) "ackermann" pc)) := by
  refine ⟨?_, (ackermann_yields 0 Int64.maxValue).1 rfl,
    (ackermann_yields Int64.minValue 0).2.2 (.inl (by decide))⟩
  rcases (ackermann_yields 2 0).2.1 (by decide) (by decide) with
    ⟨value, yields, value_eq⟩ | ⟨pc, exceeds⟩
  · have ack_eq : ack 2 0 = 3 := ack_two 0
    have isThree : value = 3 := Int64.toInt_inj.mp (value_eq.trans (congrArg Nat.cast ack_eq))
    exact isThree ▸ yields
  · have completes : ackermann.Yields 10000 [2, 0] (.completed [3]) := ⟨100, {}, rfl⟩
    cases completes.unique exceeds

end Ferry.Program
