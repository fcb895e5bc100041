import Ferry.Proofs.Engine.Capture

/-!
# How an invocation ends

Whatever the signal does, an invocation ends in one of two ways: it pauses with the record of a
machine on its course, or it ends as the uninterrupted computation does. An undisturbed invocation
ends with the outcome of the last instruction of its course, if there is a last one.
-/

namespace Ferry

namespace Engine

variable {engine : Engine}

/-- What is around an invocation: how it finds its signal, and before which boundaries somebody arms
the signal. -/
structure Surroundings where
  signal : Signal := {}
  arms : Nat → Bool := fun _ => false

/-- Under some surroundings an invocation comes to an outcome. -/
def ComesTo (engine : Engine) (around : Surroundings) (begun : Except Fault Invocation)
    (outcome : Outcome Fault) : Prop :=
  ∃ fuel left, engine.play around.arms fuel around.signal begun = some (outcome, left)

/-- Uninterrupted, an invocation comes to an outcome. -/
def Ends (engine : Engine) (begun : Except Fault Invocation) (outcome : Outcome Fault) : Prop :=
  engine.ComesTo {} begun outcome

/-- A run that has ended has paused at a machine on its course, where it consulted the signal that
somebody had armed, or it has run the last instruction. It ends at that boundary whatever fuel it is
given. -/
theorem run_eq_of_ended {arms : Nat → Bool} {fuel boundary : Nat} {signal left : Signal}
    {invocation : Invocation} {outcome : Outcome Fault}
    (played : engine.run arms fuel boundary signal invocation = some (outcome, left)) :
    ∃ count machine, engine.after count invocation.machine = some machine ∧
      ((outcome = .paused machine.record ∧ invocation.firstConsulted ≤ count ∧
          (signal.armed = true ∨ ∃ boundary, arms boundary = true)) ∨
        engine.end? machine = some outcome) ∧
      ∀ enough, engine.run arms enough boundary signal invocation =
        if count < enough then some (outcome, left) else none := by
  induction fuel generalizing boundary signal invocation with
  | zero => simp [run] at played
  | succ fuel ih =>
      rw [run] at played
      have armed_by : (signal.armIf (arms boundary)).armed = true →
          signal.armed = true ∨ ∃ boundary, arms boundary = true := by
        intro armed
        exact ((Bool.or_eq_true _ _).mp armed).imp_right fun now => ⟨boundary, now⟩
      have at_once {outcome : Outcome Fault} {left : Signal}
          (turned : engine.turn (signal.armIf (arms boundary)) invocation = (.ended outcome, left))
          (enough : Nat) : engine.run arms enough boundary signal invocation =
            if 0 < enough then some (outcome, left) else none := by
        cases enough with
        | zero => rfl
        | succ enough => rw [run, turned, if_pos (Nat.succ_pos enough)]
      rcases engine.turn_cases (signal.armIf (arms boundary)) invocation with
        ⟨first, armed, turned⟩ | ⟨next, goes, turned⟩ | ⟨last, ended, turned⟩
      · rw [turned] at played
        cases played
        exact ⟨0, invocation.machine, rfl, .inl ⟨rfl, Nat.le_of_eq first, armed_by armed⟩,
          at_once turned⟩
      · rw [turned] at played
        rcases ih played with ⟨count, machine, passed, ending, rest⟩
        refine ⟨count + 1, machine, by rw [after_succ', goes]; exact passed, ?_, ?_⟩
        · rcases ending with ⟨paused, -, cause⟩ | ended
          · have progress : invocation.firstConsulted ≤ count + 1 :=
              Nat.le_trans invocation.firstConsulted_le_one (Nat.le_add_left 1 count)
            exact .inl ⟨paused, progress, cause.elim armed_by .inr⟩
          · exact .inr ended
        · intro enough
          cases enough with
          | zero => rfl
          | succ enough =>
              rw [run, turned]
              simp only [rest, Nat.add_lt_add_iff_right]
      · rw [turned] at played
        cases played
        exact ⟨0, invocation.machine, rfl, .inr ended, at_once turned⟩

theorem run_cases {arms : Nat → Bool} {fuel boundary : Nat} {signal left : Signal}
    {invocation : Invocation} {outcome : Outcome Fault}
    (played : engine.run arms fuel boundary signal invocation = some (outcome, left)) :
    ∃ count machine, engine.after count invocation.machine = some machine ∧
      ((outcome = .paused machine.record ∧ invocation.firstConsulted ≤ count ∧
          (signal.armed = true ∨ ∃ boundary, arms boundary = true)) ∨
        engine.end? machine = some outcome) := by
  rcases run_eq_of_ended played with ⟨count, machine, passed, ending, -⟩
  exact ⟨count, machine, passed, ending⟩

/-- An invocation pauses with the record of a machine on its course. -/
theorem passes_of_paused {around : Surroundings} {begun : Except Fault Invocation}
    {snapshot : Snapshot} (paused : engine.ComesTo around begun (.paused snapshot)) :
    ∃ machine, engine.Passes begun machine ∧ snapshot = machine.record := by
  rcases paused with ⟨fuel, left, played⟩
  cases begun with
  | error fault => cases played
  | ok invocation =>
      rcases run_cases played with ⟨count, machine, passed, ⟨same, -, -⟩ | ended⟩
      · cases same
        exact ⟨machine, ⟨invocation, count, rfl, passed⟩, rfl⟩
      · have notPaused := not_isPaused_of_end? ended
        contradiction

/-- If the computation has a last instruction, every run of it ends. -/
theorem run_isSome_of_end? (arms : Nat → Bool) (boundary : Nat) (signal : Signal) {count : Nat}
    {invocation : Invocation} {last : Machine} {outcome : Outcome Fault}
    (passed : engine.after count invocation.machine = some last)
    (ended : engine.end? last = some outcome) :
    ∃ result, engine.run arms (count + 1) boundary signal invocation = some result := by
  induction count generalizing boundary signal invocation with
  | zero =>
      cases passed
      rw [run]
      rcases engine.turn_cases (signal.armIf (arms boundary)) invocation with
        ⟨-, -, turned⟩ | ⟨next, goes, -⟩ | ⟨result, -, turned⟩
      · exact ⟨_, by rw [turned]⟩
      · rw [next?_eq_none_of_end? ended] at goes
        contradiction
      · exact ⟨_, by rw [turned]⟩
  | succ count ih =>
      rw [after_succ'] at passed
      obtain ⟨next, goes, passed⟩ := Option.bind_eq_some_iff.mp passed
      rw [run]
      rcases engine.turn_cases (signal.armIf (arms boundary)) invocation with
        ⟨-, -, turned⟩ | ⟨next', goes', turned⟩ | ⟨result, -, turned⟩
      · exact ⟨_, by rw [turned]⟩
      · rw [goes] at goes'
        cases goes'
        rw [turned]
        exact ih (boundary + 1) (signal.armIf (arms boundary)) passed
      · exact ⟨_, by rw [turned]⟩

/-- An uninterrupted computation ends with the outcome of the last instruction on its course, or
with the fault because of which it could not begin. -/
theorem ends_iff {begun : Except Fault Invocation} {outcome : Outcome Fault} :
    engine.Ends begun outcome ↔
      (∃ fault, begun = .error fault ∧ outcome = .faulted fault) ∨
        ∃ machine, engine.Passes begun machine ∧ engine.end? machine = some outcome := by
  constructor
  · rintro ⟨fuel, left, played⟩
    cases begun with
    | error fault =>
        cases played
        exact .inl ⟨fault, rfl, rfl⟩
    | ok invocation =>
        rcases run_cases played with ⟨count, machine, passed, ⟨-, -, armed⟩ | ended⟩
        · rcases armed with armed | ⟨boundary, armed⟩ <;> contradiction
        · exact .inr ⟨machine, ⟨invocation, count, rfl, passed⟩, ended⟩
  · rintro (⟨fault, rfl, rfl⟩ | ⟨last, ⟨invocation, count, rfl, passed⟩, ended⟩)
    · exact ⟨0, {}, rfl⟩
    · rcases run_isSome_of_end? (fun _ => false) 0 {} passed ended with ⟨⟨result, left⟩, played⟩
      rcases run_cases played with ⟨other, machine, reached, ⟨-, -, armed⟩ | stops⟩
      · rcases armed with armed | ⟨boundary, armed⟩ <;> contradiction
      · rw [← outcome_unique passed ended reached stops] at played
        exact ⟨count + 1, left, played⟩

/-- An invocation that does not pause ends as if nobody had disturbed it. -/
theorem ends_of_comesTo {around : Surroundings} {begun : Except Fault Invocation}
    {outcome : Outcome Fault} (comes : engine.ComesTo around begun outcome)
    (notPaused : outcome.isPaused = false) : engine.Ends begun outcome := by
  rcases comes with ⟨fuel, left, played⟩
  cases begun with
  | error fault =>
      cases played
      exact ends_iff.mpr (.inl ⟨fault, rfl, rfl⟩)
  | ok invocation =>
      rcases run_cases played with ⟨count, machine, passed, ⟨rfl, -, -⟩ | ended⟩
      · contradiction
      · exact ends_iff.mpr (.inr ⟨machine, ⟨invocation, count, rfl, passed⟩, ended⟩)

/-- What is left of a computation ends as the whole does. -/
theorem Passes.ends {begun : Except Fault Invocation} {machine : Machine} {consults : Bool}
    {outcome : Outcome Fault} (passes : engine.Passes begun machine)
    (ends : engine.Ends (.ok ⟨machine, consults⟩) outcome) : engine.Ends begun outcome := by
  rcases ends_iff.mp ends with ⟨fault, impossible, -⟩ | ⟨last, ⟨_, count, same, passed⟩, ended⟩
  · cases impossible
  · cases same
    exact ends_iff.mpr (.inr ⟨last, passes.after passed, ended⟩)

/-- The whole of a computation ends as what is left of it does. -/
theorem Passes.ends_rest {begun : Except Fault Invocation} {machine : Machine}
    {outcome : Outcome Fault} (passes : engine.Passes begun machine)
    (ends : engine.Ends begun outcome) (consults : Bool) :
    engine.Ends (.ok ⟨machine, consults⟩) outcome := by
  rcases passes with ⟨invocation, earlier, rfl, reached⟩
  rcases ends_iff.mp ends with ⟨fault, impossible, -⟩ | ⟨last, ⟨_, count, same, passed⟩, ended⟩
  · cases impossible
  · cases same
    obtain ⟨rest, rfl⟩ := Nat.exists_eq_add_of_le (le_of_end? passed ended reached)
    rw [after_add, reached] at passed
    exact ends_iff.mpr (.inr ⟨last, ⟨_, rest, rfl, passed⟩, ended⟩)

/-- An uninterrupted computation ends with at most one outcome. -/
theorem Ends.unique {begun : Except Fault Invocation} {outcome result : Outcome Fault}
    (ends : engine.Ends begun outcome) (ends' : engine.Ends begun result) : outcome = result := by
  rcases ends_iff.mp ends with ⟨fault, rfl, rfl⟩ | ⟨last, ⟨_, _, rfl, passed⟩, ended⟩
  · rcases ends_iff.mp ends' with ⟨_, same, rfl⟩ | ⟨_, ⟨_, _, same, _⟩, _⟩
    · cases same
      rfl
    · cases same
  · rcases ends_iff.mp ends' with ⟨_, same, rfl⟩ | ⟨_, ⟨_, _, same, reached⟩, stops⟩
    · cases same
    · cases same
      exact outcome_unique passed ended reached stops

end Engine

end Ferry
