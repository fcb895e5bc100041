import Ferry.Proofs.Engine.Ending

/-!
# How many instructions a computation executes

An uninterrupted computation that ends has executed a certain number of instructions, and the one
that halts or traps is the last of them. On its way there it has executed fewer. Whoever resumes it
from records of its machines goes on along the same way.
-/

namespace Ferry.Engine

variable {engine : Engine} {begun : Except Fault Invocation}

/-- After so many instructions the computation stands at the machine. -/
def StandsAt (engine : Engine) (begun : Except Fault Invocation) (count : Nat)
    (machine : Machine) : Prop :=
  ∃ invocation, begun = .ok invocation ∧ engine.after count invocation.machine = some machine

/-- Uninterrupted, a computation executes so many instructions, and the last one ends it with the
outcome. A computation that cannot begin executes none. -/
inductive EndsAfter (engine : Engine) (begun : Except Fault Invocation) :
    Nat → Outcome Fault → Prop where
  | refused {fault : Fault} (refused : begun = .error fault) :
      EndsAfter engine begun 0 (.faulted fault)
  | executed {count : Nat} {last : Machine} {outcome : Outcome Fault}
      (stands : engine.StandsAt begun count last) (ended : engine.end? last = some outcome) :
      EndsAfter engine begun (count + 1) outcome

theorem passes_iff {machine : Machine} :
    engine.Passes begun machine ↔ ∃ count, engine.StandsAt begun count machine := by
  constructor
  · rintro ⟨invocation, count, called, passed⟩
    exact ⟨count, invocation, called, passed⟩
  · rintro ⟨count, invocation, called, passed⟩
    exact ⟨invocation, count, called, passed⟩

theorem ends_iff_exists_endsAfter {outcome : Outcome Fault} :
    engine.Ends begun outcome ↔ ∃ count, engine.EndsAfter begun count outcome := by
  rw [ends_iff]
  constructor
  · rintro (⟨fault, refused, rfl⟩ | ⟨last, passes, ended⟩)
    · exact ⟨0, .refused refused⟩
    · obtain ⟨count, stands⟩ := passes_iff.mp passes
      exact ⟨count + 1, .executed stands ended⟩
  · rintro ⟨count, ends⟩
    cases ends with
    | refused refused => exact .inl ⟨_, refused, rfl⟩
    | executed stands ended => exact .inr ⟨_, passes_iff.mpr ⟨_, stands⟩, ended⟩

theorem standsAt_begun (invocation : Invocation) :
    engine.StandsAt (.ok invocation) 0 invocation.machine :=
  ⟨invocation, rfl, rfl⟩

namespace StandsAt

variable {count : Nat} {machine : Machine}

theorem passes (stands : engine.StandsAt begun count machine) : engine.Passes begun machine :=
  passes_iff.mpr ⟨count, stands⟩

theorem next {later : Machine} (stands : engine.StandsAt begun count machine)
    (goes : engine.next? machine = some later) : engine.StandsAt begun (count + 1) later := by
  rcases stands with ⟨invocation, called, passed⟩
  exact ⟨invocation, called, by rw [after_succ, passed]; exact goes⟩

/-- A computation that is under way has instructions left. -/
theorem lt_of_endsAfter (stands : engine.StandsAt begun count machine) {total : Nat}
    {outcome : Outcome Fault} (ends : engine.EndsAfter begun total outcome) : count < total := by
  rcases stands with ⟨invocation, called, passed⟩
  cases ends with
  | refused refused =>
      rw [called] at refused
      cases refused
  | executed last ended =>
      rcases last with ⟨invocation', called', passed'⟩
      rw [called] at called'
      cases called'
      exact Nat.lt_succ_of_le (le_of_end? passed' ended passed)

end StandsAt

namespace EndsAfter

variable {total : Nat} {outcome : Outcome Fault}

theorem ends (ends : engine.EndsAfter begun total outcome) : engine.Ends begun outcome :=
  ends_iff_exists_endsAfter.mpr ⟨total, ends⟩

/-- A computation executes one number of instructions. -/
theorem length_unique (ends : engine.EndsAfter begun total outcome) {other : Nat}
    {result : Outcome Fault} (again : engine.EndsAfter begun other result) : total = other := by
  cases ends with
  | refused refused =>
      cases again with
      | refused _ => rfl
      | executed stands _ =>
          obtain ⟨_, called, _⟩ := stands
          rw [refused] at called
          cases called
  | executed stands ended =>
      have lt := stands.lt_of_endsAfter again
      cases again with
      | refused _ => contradiction
      | executed stands' ended' =>
          have lt' := stands'.lt_of_endsAfter (.executed stands ended)
          exact Nat.le_antisymm (Nat.succ_le_of_lt lt) (Nat.succ_le_of_lt lt')

end EndsAfter

/-- Every machine on the course of a computation is resumed from its record. -/
def Resumable (engine : Engine) (begun : Except Fault Invocation) : Prop :=
  ∀ machine, engine.Passes begun machine → engine.resume machine.record = .ok ⟨machine, false⟩

/-- A call can be resumed all along, if frames have room for every offset and the limit for one
activation. -/
theorem resumable_call (addressable : engine.module.Addressable)
    (limit_pos : 1 ≤ engine.maxCallDepth) (entry : UInt32) (arguments : List Word) :
    engine.Resumable (engine.call entry arguments) := by
  rintro machine ⟨invocation, count, called, passed⟩
  exact resume_record (regular_after (regular_of_call limit_pos called) passed) addressable

end Ferry.Engine
