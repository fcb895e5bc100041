import Ferry.Proofs.Machine.Recording

/-!
# The course of an uninterrupted computation

If nobody arms the signal, an invocation runs one instruction after the other until one of them
halts or traps. `Engine.after` counts instructions exactly: it gives the machine after that many of
them, if the computation goes on for so long. What the engine does under a signal is later told in
terms of this course.
-/

namespace Ferry

namespace Engine

variable {engine : Engine}

/-- The machine after one more instruction, if the computation goes on. -/
def next? (engine : Engine) (machine : Machine) : Option Machine :=
  match machine.step engine.module engine.maxCallDepth with
  | .running next => some next
  | .halted _ | .trapped _ _ => none

/-- The outcome, if the next instruction is the last one. -/
def end? (engine : Engine) (machine : Machine) : Option (Outcome Fault) :=
  match engine.advance machine with
  | .going _ => none
  | .ended outcome => some outcome

/-- The machine after exactly `count` instructions, if the computation goes on for so long. -/
def after (engine : Engine) : (count : Nat) → Machine → Option Machine
  | 0, machine => some machine
  | count + 1, machine => (engine.after count machine).bind engine.next?

@[simp]
theorem after_zero (machine : Machine) : engine.after 0 machine = some machine :=
  rfl

theorem after_succ (count : Nat) (machine : Machine) :
    engine.after (count + 1) machine = (engine.after count machine).bind engine.next? :=
  rfl

/-- Counts of instructions add up. -/
theorem after_add (count more : Nat) (machine : Machine) :
    engine.after (count + more) machine =
      (engine.after count machine).bind (engine.after more) := by
  induction more with
  | zero => simp [after]
  | succ more ih =>
      rw [← Nat.add_assoc, after_succ, ih, Option.bind_assoc]
      rfl

/-- The first instruction and then the others. -/
theorem after_succ' (count : Nat) (machine : Machine) :
    engine.after (count + 1) machine = (engine.next? machine).bind (engine.after count) := by
  rw [Nat.add_comm, after_add]
  rfl

theorem after_of_le {count more : Nat} {machine later : Machine} (le : count ≤ more)
    (passed : engine.after more machine = some later) :
    ∃ between, engine.after count machine = some between := by
  rcases Nat.exists_eq_add_of_le le with ⟨rest, rfl⟩
  rw [after_add] at passed
  obtain ⟨between, passes, -⟩ := Option.bind_eq_some_iff.mp passed
  exact ⟨between, passes⟩

theorem next?_eq_some_iff {machine next : Machine} :
    engine.next? machine = some next ↔ engine.advance machine = .going ⟨next, true⟩ := by
  simp only [next?, advance]
  split <;> simp_all

theorem end?_eq_some_iff {machine : Machine} {outcome : Outcome Fault} :
    engine.end? machine = some outcome ↔ engine.advance machine = .ended outcome := by
  simp only [end?]
  split <;> simp_all

/-- Either the computation goes on or the next instruction is the last one. -/
theorem next?_or_end? (engine : Engine) (machine : Machine) :
    (∃ next, engine.next? machine = some next) ∨
      ∃ outcome, engine.end? machine = some outcome := by
  cases stepped : machine.step engine.module engine.maxCallDepth with
  | running next => exact .inl ⟨next, by simp [next?, stepped]⟩
  | halted results => exact .inr ⟨.completed results, by simp only [end?, advance, stepped]⟩
  | trapped trap site =>
      exact .inr ⟨.faulted (.trapped trap (engine.functionName site.function) site.pc), by
        simp only [end?, advance, stepped]⟩

/-- A computation goes on for a number of instructions, or one of them is the last. -/
theorem after_or_end? (engine : Engine) (origin : Machine) (count : Nat) :
    (∃ machine, engine.after count origin = some machine) ∨
      ∃ earlier last outcome, earlier < count ∧ engine.after earlier origin = some last ∧
        engine.end? last = some outcome := by
  induction count with
  | zero => exact .inl ⟨origin, rfl⟩
  | succ count ih =>
      rcases ih with ⟨machine, passed⟩ | ⟨earlier, last, outcome, before, passed, ended⟩
      · rcases engine.next?_or_end? machine with ⟨next, goes⟩ | ⟨outcome, ended⟩
        · exact .inl ⟨next, by rw [after_succ, passed]; exact goes⟩
        · exact .inr ⟨count, machine, outcome, Nat.lt_succ_self count, passed, ended⟩
      · exact .inr ⟨earlier, last, outcome, Nat.lt_succ_of_lt before, passed, ended⟩

theorem next?_eq_none_of_end? {machine : Machine} {outcome : Outcome Fault}
    (ended : engine.end? machine = some outcome) : engine.next? machine = none := by
  cases goes : engine.next? machine with
  | none => rfl
  | some next =>
      rw [end?_eq_some_iff, next?_eq_some_iff.mp goes] at ended
      contradiction

/-- Nothing comes after the last instruction. -/
theorem le_of_end? {count other : Nat} {origin last machine : Machine} {outcome : Outcome Fault}
    (passed : engine.after count origin = some last) (ended : engine.end? last = some outcome)
    (reached : engine.after other origin = some machine) : other ≤ count := by
  by_cases le : other ≤ count
  · exact le
  · obtain ⟨between, passes⟩ := after_of_le (Nat.not_le.mp le) reached
    rw [after_succ, passed, Option.bind_some, next?_eq_none_of_end? ended] at passes
    contradiction

/-- There is only one last instruction. -/
theorem outcome_unique {count other : Nat} {origin last machine : Machine}
    {outcome result : Outcome Fault} (passed : engine.after count origin = some last)
    (ended : engine.end? last = some outcome) (reached : engine.after other origin = some machine)
    (stops : engine.end? machine = some result) : outcome = result := by
  have same : count = other :=
    Nat.le_antisymm (le_of_end? reached stops passed) (le_of_end? passed ended reached)
  rw [same, reached] at passed
  cases passed
  rw [ended] at stops
  exact Option.some.inj stops

/-- An instruction halts or traps; it never pauses. -/
theorem not_isPaused_of_end? {machine : Machine} {outcome : Outcome Fault}
    (ended : engine.end? machine = some outcome) : outcome.isPaused = false := by
  rw [end?_eq_some_iff, advance] at ended
  split at ended <;> cases ended <;> rfl

/-- An instruction that completes a computation has halted. -/
theorem halted_of_end? {machine : Machine} {values : List Word}
    (ended : engine.end? machine = some (.completed values)) :
    machine.step engine.module engine.maxCallDepth = .halted values := by
  rw [end?_eq_some_iff, advance] at ended
  split at ended
  · cases ended
  · rename_i stepped
    cases ended
    exact stepped
  · cases ended

/-- An instruction that ends a computation with a fault has trapped. -/
theorem trapped_of_end? {machine : Machine} {fault : Fault}
    (ended : engine.end? machine = some (.faulted fault)) :
    ∃ trap site, machine.step engine.module engine.maxCallDepth = .trapped trap site ∧
      fault = .trapped trap (engine.functionName site.function) site.pc := by
  rw [end?_eq_some_iff, advance] at ended
  split at ended
  · cases ended
  · cases ended
  · rename_i trap site stepped
    cases ended
    exact ⟨trap, site, stepped, rfl⟩

theorem step_of_next? {machine next : Machine} (goes : engine.next? machine = some next) :
    machine.step engine.module engine.maxCallDepth = .running next := by
  rw [next?] at goes
  split at goes
  · cases goes
    assumption
  · contradiction
  · contradiction

/-- What every instruction keeps up holds all along the course. -/
theorem after_induction {holds : Machine → Prop} {origin : Machine} (at_origin : holds origin)
    (kept : ∀ machine next, holds machine →
      machine.step engine.module engine.maxCallDepth = .running next → holds next)
    {count : Nat} {machine : Machine} (passed : engine.after count origin = some machine) :
    holds machine := by
  induction count generalizing machine with
  | zero =>
      cases passed
      exact at_origin
  | succ count ih =>
      obtain ⟨between, passes, goes⟩ := Option.bind_eq_some_iff.mp passed
      exact kept between machine (ih passes) (step_of_next? goes)

/-- The function that was called first stays the same. -/
theorem entry_after {count : Nat} {origin machine : Machine}
    (passed : engine.after count origin = some machine) : machine.entry = origin.entry := by
  apply after_induction _ _ passed
  · rfl
  intro between next same stepped
  rcases Machine.advanced_of_advance (Machine.step_eq_running_iff.mp stepped) with
    ⟨_, _, -, -, advanced⟩
  exact advanced.entry_eq.trans same

theorem fitsIn_after {count : Nat} {origin machine : Machine} (fits : origin.FitsIn engine.module)
    (passed : engine.after count origin = some machine) : machine.FitsIn engine.module :=
  after_induction fits (fun _ _ fits stepped => fits.step stepped) passed

/-- Every machine on the course of a regular one is regular. -/
theorem regular_after {count : Nat} {origin machine : Machine}
    (regular : origin.Regular engine.module engine.maxCallDepth)
    (passed : engine.after count origin = some machine) :
    machine.Regular engine.module engine.maxCallDepth :=
  after_induction regular (fun _ _ regular stepped => regular.step stepped) passed

/-- A call begins with the machine of its function, which is called with the right number of
arguments. -/
theorem start_of_call {entry : UInt32} {arguments : List Word} {invocation : Invocation}
    (called : engine.call entry arguments = .ok invocation) :
    ∃ function, engine.module.function? entry = some function ∧
      arguments.length = function.params.toNat ∧
      invocation = ⟨.start entry function arguments, true⟩ := by
  rw [call] at called
  split at called
  · contradiction
  · rename_i function found
    split at called
    · contradiction
    · rename_i arity
      cases called
      exact ⟨function, found, Decidable.not_not.mp arity, rfl⟩

/-- A call begins with a regular machine. -/
theorem regular_of_call {entry : UInt32} {arguments : List Word} {invocation : Invocation}
    (limit_pos : 1 ≤ engine.maxCallDepth)
    (called : engine.call entry arguments = .ok invocation) :
    invocation.machine.Regular engine.module engine.maxCallDepth := by
  rcases start_of_call called with ⟨function, found, arity, rfl⟩
  exact Machine.regular_start found arity limit_pos

theorem fitsIn_of_call {entry : UInt32} {arguments : List Word} {invocation : Invocation}
    (called : engine.call entry arguments = .ok invocation) :
    invocation.machine.FitsIn engine.module := by
  rcases start_of_call called with ⟨function, found, arity, rfl⟩
  exact Machine.fitsIn_start found arity

/-- A machine is on the course of what a call or a continuation has begun. -/
def Passes (engine : Engine) (begun : Except Fault Invocation) (machine : Machine) : Prop :=
  ∃ invocation count, begun = .ok invocation ∧
    engine.after count invocation.machine = some machine

theorem passes_begun (invocation : Invocation) :
    engine.Passes (.ok invocation) invocation.machine :=
  ⟨invocation, 0, rfl, rfl⟩

theorem Passes.after {begun : Except Fault Invocation} {machine later : Machine} {count : Nat}
    (passes : engine.Passes begun machine) (passed : engine.after count machine = some later) :
    engine.Passes begun later := by
  rcases passes with ⟨invocation, earlier, rfl, reached⟩
  exact ⟨invocation, earlier + count, rfl, by rw [after_add, reached]; exact passed⟩

theorem Passes.next {begun : Except Fault Invocation} {machine next : Machine}
    (passes : engine.Passes begun machine) (goes : engine.next? machine = some next) :
    engine.Passes begun next := by
  have passed : engine.after 1 machine = some next := goes
  exact passes.after passed

end Engine

end Ferry
