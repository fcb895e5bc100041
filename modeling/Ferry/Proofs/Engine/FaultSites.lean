import Ferry.Proofs.Engine.Depth
import Ferry.Proofs.Machine.Faulting

/-!
# Faults point at the instruction that trapped

A run that ends with a fault has taken its last boundary from a machine on its course. The fault
names the function of this machine's running activation, and the offset of the instruction that was
fetched there, which is in one of the situations in which it traps. Conversely a run never gets past
a machine in such a situation: unless it is captured, it ends there with the fault.
-/

namespace Ferry

namespace Engine

variable {engine : Engine}

/-- A run takes its last boundary, after `count` others, from a machine, and comes to an outcome
there. -/
structure EndsAt (engine : Engine) (around : Surroundings) (invocation : Invocation) (count : Nat)
    (machine : Machine) (outcome : Outcome Fault) : Prop where
  reached : engine.after count invocation.machine = some machine
  played : ∀ fuel, (engine.play around.arms fuel around.signal (.ok invocation)).map Prod.fst =
    if count < fuel then some outcome else none

/-- A run that comes to a fault does so where the machine on its course traps. -/
theorem endsAt_of_faulted {around : Surroundings} {invocation : Invocation} {fault : Fault}
    (comes : engine.ComesTo around (.ok invocation) (.faulted fault)) :
    ∃ count machine, engine.EndsAt around invocation count machine (.faulted fault) ∧
      engine.end? machine = some (.faulted fault) := by
  rcases comes with ⟨fuel, left, played⟩
  rcases run_eq_of_ended played with ⟨count, machine, passed, ⟨impossible, -, -⟩ | ended, total⟩
  · cases impossible
  · refine ⟨count, machine, ⟨passed, ?_⟩, ended⟩
    intro fuel
    rw [play, total]
    split <;> rfl

/-- A run ends with a fault, unless it is captured before. -/
structure BoundToFault (engine : Engine) (invocation : Invocation) (fault : Fault) : Prop where
  undisturbed : engine.Ends (.ok invocation) (.faulted fault)
  otherwise : ∀ around, engine.ComesTo around (.ok invocation) (.faulted fault) ∨
    ∃ snapshot, engine.ComesTo around (.ok invocation) (.paused snapshot)

theorem boundToFault_of_end? {invocation : Invocation} {count : Nat} {machine : Machine}
    {fault : Fault} (passed : engine.after count invocation.machine = some machine)
    (ended : engine.end? machine = some (.faulted fault)) :
    engine.BoundToFault invocation fault := by
  constructor
  · exact ends_iff.mpr (.inr ⟨machine, ⟨invocation, count, rfl, passed⟩, ended⟩)
  · intro around
    rcases run_isSome_of_end? around.arms 0 around.signal passed ended with
      ⟨⟨outcome, left⟩, played⟩
    have comes : engine.ComesTo around (.ok invocation) outcome := ⟨count + 1, left, played⟩
    rcases run_cases played with ⟨other, last, reached, ⟨paused, -, -⟩ | stops⟩
    · exact .inr ⟨last.record, paused ▸ comes⟩
    · exact .inl (outcome_unique passed ended reached stops ▸ comes)

/-- The fault that an instruction raises names its function and its offset. -/
theorem end?_of_raises {machine : Machine} {function : Function} {instruction : Instruction}
    {trap : Trap} (fetches : machine.Fetches engine.module function instruction)
    (raises : machine.Raises engine.module engine.maxCallDepth function instruction trap) :
    engine.end? machine = some (.faulted (.trapped trap function.name machine.top.pc)) := by
  have stepped : machine.step engine.module engine.maxCallDepth = .trapped trap machine.site :=
    Machine.step_eq_trapped_iff.mpr ⟨raises.advance_eq fetches, rfl⟩
  have name_eq : engine.functionName machine.site.function = function.name := by
    simp only [functionName, Machine.site, fetches.found]
  rw [end?_eq_some_iff, advance, stepped]
  simp only [name_eq]
  rfl

theorem raises_of_end? {machine : Machine} {fault : Fault} (fits : machine.FitsIn engine.module)
    (ended : engine.end? machine = some (.faulted fault)) :
    ∃ function instruction trap, machine.Fetches engine.module function instruction ∧
      machine.Raises engine.module engine.maxCallDepth function instruction trap ∧
      fault = .trapped trap function.name machine.top.pc := by
  rcases trapped_of_end? ended with ⟨trap, site, stepped, -⟩
  rcases (fits.step_eq_trapped_iff.mp stepped).2 with ⟨function, instruction, fetches, raises⟩
  rw [end?_of_raises fetches raises] at ended
  cases ended
  exact ⟨function, instruction, trap, fetches, raises, rfl⟩

/-- A fault that ends a run names the function that was running at the last boundary, and the offset
in its body of the instruction that was fetched there; and this instruction can raise the trap.
Conversely a run that stands before such an instruction ends with the fault, unless it is captured,
and there is such a fault wherever there are fewer operands than the instruction needs. -/
theorem faults_at_instruction (engine : Engine) {task : Task} {invocation : Invocation}
    (begun : engine.begin task = .ok invocation) :
    (∀ around fault, engine.ComesTo around (.ok invocation) (.faulted fault) →
      ∃ count machine function instruction trap,
        engine.EndsAt around invocation count machine (.faulted fault) ∧
        machine.Fetches engine.module function instruction ∧
        machine.Raises engine.module engine.maxCallDepth function instruction trap ∧
        fault = .trapped trap function.name machine.top.pc ∧
        engine.module.export? function.name = some machine.top.function) ∧
    ∀ machine function instruction, engine.Passes (.ok invocation) machine →
      machine.Fetches engine.module function instruction →
      (∀ trap, machine.Raises engine.module engine.maxCallDepth function instruction trap →
        engine.BoundToFault invocation (.trapped trap function.name machine.top.pc)) ∧
      (machine.top.operands.length < instruction.needs engine.module function →
        ∃ trap, machine.Raises engine.module engine.maxCallDepth function instruction trap) := by
  constructor
  · intro around fault comes
    rcases endsAt_of_faulted comes with ⟨count, machine, endsAt, ended⟩
    have fits := fitsIn_after (fitsIn_of_begin begun) endsAt.reached
    rcases raises_of_end? fits ended with ⟨function, instruction, trap, fetches, raises, same⟩
    exact ⟨count, machine, function, instruction, trap, endsAt, fetches, raises, same,
      Module.export?_name fetches.found⟩
  · rintro machine function instruction ⟨_, count, same, passed⟩ fetches
    cases same
    constructor
    · intro trap raises
      exact boundToFault_of_end? passed (end?_of_raises fetches raises)
    · exact Machine.exists_raises_of_few

/-- With room for two activations the computation for 3 ends at a recursive call that the one for 2
makes, and the fault points at it. A snapshot that stands before a return and holds no operands is
resumed, and bound to underflow. -/
theorem faults_at_instruction_fib :
    (∃ invocation, (Engine.mk Program.fib.module 2).begin (.call 0 [3]) = .ok invocation ∧
      ∃ count machine function callee,
        (Engine.mk Program.fib.module 2).EndsAt {} invocation count machine
          (.faulted (.trapped (.callDepthExceeded 2) "fib" 9)) ∧
        machine.Fetches Program.fib.module function (.call callee) ∧ machine.top.pc = 9) ∧
    ∃ invocation, (Engine.mk Program.fib.module 10000).begin
        (.resume ⟨true, [⟨5, 0, [9], []⟩], 0⟩) = .ok invocation ∧
      (Engine.mk Program.fib.module 10000).BoundToFault invocation
        (.trapped .stackUnderflow "fib" 5) := by
  constructor
  · refine ⟨_, rfl, ?_⟩
    rcases (@faults_at_instruction (Engine.mk Program.fib.module 2) (.call 0 [3]) _ rfl).1 {} _
      ⟨16, {}, rfl⟩ with ⟨count, machine, function, _, _, endsAt, fetches, raises, same, -⟩
    obtain ⟨rfl, -, at_pc⟩ := Fault.trapped.inj same
    cases raises with
    | callDepthExceeded full => exact ⟨count, machine, function, _, endsAt, fetches, at_pc.symm⟩
  · refine ⟨_, rfl, ?_⟩
    have fetches : (Machine.mk 0 ⟨0, 5, [9], []⟩ []).Fetches Program.fib.module
        (.ofCode "fib" 1 Program.fibCode) .ret := ⟨rfl, by decide, rfl⟩
    exact ((@faults_at_instruction (Engine.mk Program.fib.module 10000)
      (.resume ⟨true, [⟨5, 0, [9], []⟩], 0⟩) _ rfl).2 _ _ _ (passes_begun _) fetches).1 _
        (.stackUnderflow (by decide) nofun)

end Engine

end Ferry
