import Ferry.Proofs.Engine.Calls
import Ferry.Proofs.Engine.FaultSites

/-!
# What lies ahead of a machine

A computation can be told from its end: it comes to an outcome from a machine on, if a later machine
does. For a call there are three rules, which follow what the callee does alone, with one activation
less to spend: it completes, and the caller goes on with its results; it finds its limit too small,
and so does the caller; or there is no room for it in the first place.
-/

namespace Ferry

/-- The machine of a computation that is not inside a call of its first function, at an offset and
with these slots and operands. -/
def Machine.alone (pc : Nat) (locals operands : List Word) : Machine :=
  ⟨0, ⟨0, pc, locals, operands⟩, []⟩

namespace Engine

/-- From a machine on, an undisturbed computation comes to an outcome. -/
def EndsFrom (engine : Engine) (machine : Machine) (outcome : Outcome Fault) : Prop :=
  ∃ count last, engine.after count machine = some last ∧ engine.end? last = some outcome

variable {engine : Engine} {machine : Machine} {outcome : Outcome Fault}

theorem ends_iff_endsFrom {invocation : Invocation} :
    engine.Ends (.ok invocation) outcome ↔ engine.EndsFrom invocation.machine outcome := by
  rw [ends_iff]
  constructor
  · rintro (⟨_, impossible, -⟩ | ⟨last, ⟨_, count, same, passed⟩, ended⟩)
    · cases impossible
    · cases same
      exact ⟨count, last, passed, ended⟩
  · rintro ⟨count, last, passed, ended⟩
    exact .inr ⟨last, ⟨invocation, count, rfl, passed⟩, ended⟩

/-- The next instruction is the last one. -/
theorem EndsFrom.now (ended : engine.end? machine = some outcome) :
    engine.EndsFrom machine outcome :=
  ⟨0, machine, rfl, ended⟩

/-- A machine comes to what a later one comes to. -/
theorem EndsFrom.of_after {count : Nat} {later : Machine}
    (passed : engine.after count machine = some later) (ends : engine.EndsFrom later outcome) :
    engine.EndsFrom machine outcome := by
  rcases ends with ⟨rest, last, reached, ended⟩
  exact ⟨count + rest, last, by rw [after_add, passed]; exact reached, ended⟩

/-- From a machine on, an undisturbed computation executes any number of instructions. -/
def Endless (engine : Engine) (machine : Machine) : Prop :=
  ∀ count, ∃ later, engine.after count machine = some later

theorem Endless.not_endsFrom (endless : engine.Endless machine) (outcome : Outcome Fault) :
    ¬ engine.EndsFrom machine outcome := by
  rintro ⟨count, last, passed, ended⟩
  obtain ⟨later, goesOn⟩ := endless (count + 1)
  exact Nat.not_succ_le_self count (le_of_end? passed ended goesOn)

theorem Endless.of_after {count : Nat} {later : Machine}
    (passed : engine.after count machine = some later) (endless : engine.Endless later) :
    engine.Endless machine := by
  intro more
  obtain ⟨further, goesOn⟩ := endless more
  have reached : engine.after (count + more) machine = some further := by
    rw [after_add, passed]
    exact goesOn
  exact after_of_le (Nat.le_add_left more count) reached

/-- A computation that comes round from each head of a loop to another one is endless. -/
theorem endless_of_rounds {heads : Machine → Prop}
    (round : ∀ head, heads head →
      ∃ count next, engine.after (count + 1) head = some next ∧ heads next)
    {head : Machine} (at_head : heads head) : engine.Endless head := by
  have reaches (rounds : Nat) :
      ∃ count next, rounds ≤ count ∧ engine.after count head = some next ∧ heads next := by
    induction rounds with
    | zero => exact ⟨0, head, Nat.le_refl 0, rfl, at_head⟩
    | succ rounds ih =>
        obtain ⟨count, next, le, passed, at_next⟩ := ih
        obtain ⟨more, further, goesOn, at_further⟩ := round next at_next
        have reached : engine.after (count + (more + 1)) head = some further := by
          rw [after_add, passed]
          exact goesOn
        have le' : rounds + 1 ≤ count + (more + 1) := Nat.add_le_add le (Nat.le_add_left 1 more)
        exact ⟨count + (more + 1), further, le', reached, at_further⟩
  intro count
  obtain ⟨_, _, le, passed, -⟩ := reaches count
  exact after_of_le le passed

namespace Calls

variable {callee : UInt32} {function : Function} {arguments rest : List Word}

/-- If the callee alone completes, the computation comes to what the caller comes to with the
results. -/
theorem endsFrom_of_completed (calls : engine.Calls machine callee function arguments rest)
    {values : List Word}
    (alone : (engine.above machine.depth).EndsFrom (.start callee function arguments)
      (.completed values))
    (ends : engine.EndsFrom (machine.answered rest values) outcome) :
    engine.EndsFrom machine outcome := by
  rcases alone with ⟨count, last, passed, ended⟩
  exact ends.of_after (calls.returnsAfter passed ended).reached

/-- If the callee alone exceeds its limit, the computation exceeds its own in the same place. -/
theorem endsFrom_of_exceeded (calls : engine.Calls machine callee function arguments rest)
    {limit pc : Nat} {name : String}
    (alone : (engine.above machine.depth).EndsFrom (.start callee function arguments)
      (.faulted (.trapped (.callDepthExceeded limit) name pc))) :
    engine.EndsFrom machine
      (.faulted (.trapped (.callDepthExceeded engine.maxCallDepth) name pc)) := by
  rcases alone with ⟨count, last, passed, ended⟩
  rw [← Machine.waiting_length machine rest] at ended
  rcases end?_onTopOf_of_faulted machine.entry ended with ⟨trap, _, _, same, stops⟩
  cases same
  exact (EndsFrom.now stops).of_after (calls.after_succ_eq passed)

end Calls

/-- A call without room exceeds the limit. -/
theorem endsFrom_of_full {callee : UInt32} {function : Function}
    (fetches : machine.Fetches engine.module function (.call callee))
    (full : engine.maxCallDepth ≤ machine.depth) :
    engine.EndsFrom machine (.faulted
      (.trapped (.callDepthExceeded engine.maxCallDepth) function.name machine.top.pc)) :=
  .now (end?_of_raises fetches (.callDepthExceeded full))

end Engine

namespace Program

/-- The engine that runs a program under a limit on live activations. -/
def under (program : Program) (limit : Nat) : Engine := ⟨program.module, limit⟩

/-- A call of a program with these arguments, undisturbed and under a limit, comes to an outcome. -/
def Yields (program : Program) (limit : Nat) (arguments : List Word) (outcome : Outcome Fault) :
    Prop :=
  (program.under limit).Ends ((program.under limit).call program.entry arguments) outcome

theorem yields_iff_endsFrom {program : Program} {limit : Nat} {arguments : List Word}
    {outcome : Outcome Fault} {function : Function}
    (found : program.module.function? program.entry = some function)
    (arity : arguments.length = function.params.toNat) :
    program.Yields limit arguments outcome ↔
      (program.under limit).EndsFrom (.start program.entry function arguments) outcome := by
  have called : (program.under limit).call program.entry arguments =
      .ok ⟨.start program.entry function arguments, true⟩ := by
    simp [Engine.call, under, found, arity]
  rw [Yields, called, Engine.ends_iff_endsFrom]

end Program

end Ferry
