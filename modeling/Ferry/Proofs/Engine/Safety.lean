import Ferry.Program.Builtin
import Ferry.Proofs.Engine.Ending
import Ferry.Proofs.Machine.Trapping

/-!
# Runs are safe, whatever they begin with

Nobody vouches for a snapshot that comes from outside. Either it is refused before anything runs, or
it is the record of a machine that fits the module, callers included. From there on, as from the
start of a call, every instruction finds what it names, and a fault is an ordinary trap.
-/

namespace Ferry.Engine

variable {engine : Engine}

/-- A snapshot that is refused leaves nothing but a fault that says so. -/
theorem resume_eq_error {snapshot : Snapshot} {fault : Fault}
    (refused : engine.resume snapshot = .error fault) :
    ∃ reason, fault.message = "cannot resume: " ++ reason := by
  rw [resume] at refused
  split at refused
  · rename_i refusal _
    cases refused
    exact ⟨refusal.message, rfl⟩
  · split at refused
    · rename_i trap _
      cases refused
      exact ⟨trap.message, rfl⟩
    · cases refused

/-- What makes a run safe, whatever its surroundings and however long it takes. -/
structure RunsSafely (engine : Engine) (invocation : Invocation) : Prop where
  /-- Every instruction that is about to run exists, and so do the slot and the function that it
  names. -/
  named : ∀ machine, engine.Passes (.ok invocation) machine →
    ∃ instruction, machine.fetch engine.module = .ok instruction ∧
      (∀ slot, instruction.localSlot? = some slot → slot.toNat < machine.top.locals.length) ∧
      ∀ callee, instruction = .call callee →
        ∃ function, engine.module.function? callee = some function
  /-- If the run ends with a fault, an instruction has run into an ordinary trap. -/
  faults : ∀ around fault, engine.ComesTo around (.ok invocation) (.faulted fault) →
    ∃ trap function pc, fault = .trapped trap function pc ∧ trap.Ordinary engine.maxCallDepth

theorem runsSafely_of_fitsIn {invocation : Invocation}
    (fits : invocation.machine.FitsIn engine.module) : engine.RunsSafely invocation := by
  constructor
  · rintro machine ⟨_, count, same, passed⟩
    cases same
    rcases (fitsIn_after fits passed).fetch_ok with ⟨instruction, fetched, slots⟩
    refine ⟨instruction, fetched, slots, ?_⟩
    rintro callee rfl
    exact Machine.exists_callee fetched
  · intro around fault comes
    rcases ends_iff.mp (ends_of_comesTo comes rfl) with ⟨_, impossible, -⟩ | ⟨machine, passes, ended⟩
    · cases impossible
    · rcases passes with ⟨_, count, same, passed⟩
      cases same
      rcases trapped_of_end? ended with ⟨trap, site, stepped, isTrapped⟩
      exact ⟨trap, _, _, isTrapped, (fitsIn_after fits passed).ordinary stepped⟩

/-- Whatever a snapshot holds, resuming it is refused with the signal as it was, or gives a safe run;
and a call that begins gives a safe run. -/
theorem resume_safe (engine : Engine) :
    (∀ snapshot,
      (∃ fault reason, engine.resume snapshot = .error fault ∧
        fault.message = "cannot resume: " ++ reason ∧
        ∀ arms fuel signal,
          engine.play arms fuel signal (engine.resume snapshot) = some (.faulted fault, signal)) ∨
      ∃ invocation, engine.resume snapshot = .ok invocation ∧ engine.RunsSafely invocation) ∧
    ∀ entry arguments invocation, engine.call entry arguments = .ok invocation →
      engine.RunsSafely invocation := by
  constructor
  · intro snapshot
    cases resumed : engine.resume snapshot with
    | error fault =>
        rcases resume_eq_error resumed with ⟨reason, message⟩
        exact .inl ⟨fault, reason, rfl, message, fun _ _ _ => rfl⟩
    | ok invocation =>
        have regular := (resume_eq_ok_iff.mp resumed).2.1
        exact .inr ⟨invocation, rfl, runsSafely_of_fitsIn regular.fitsIn⟩
  · intro entry arguments invocation called
    exact runsSafely_of_fitsIn (fitsIn_of_call called)

/-- A hand-made snapshot without the operands that its return needs is resumed, and the run ends with
an ordinary trap; one without the local slot is refused; and so is the trap of a call ordinary. -/
theorem resume_safe_fib :
    (∃ trap function pc, Trap.Ordinary 10000 trap ∧
      (Engine.mk Program.fib.module 10000).play (fun _ => false) 1 {}
          ((Engine.mk Program.fib.module 10000).resume ⟨true, [⟨5, 0, [9], []⟩], 0⟩) =
        some (.faulted (.trapped trap function pc), {})) ∧
    (Engine.mk Program.fib.module 10000).resume ⟨true, [⟨5, 0, [], []⟩], 0⟩ =
      .error (.unrestorable (.corruptFrame "fib has 1 locals, frame carries 0")) ∧
    ∃ invocation, (Engine.mk Program.fib.module 1).call 0 [2] = .ok invocation ∧
      (Engine.mk Program.fib.module 1).RunsSafely invocation := by
  refine ⟨?_, rfl, _, rfl, (resume_safe ⟨Program.fib.module, 1⟩).2 0 [2] _ rfl⟩
  have resumed : (Engine.mk Program.fib.module 10000).resume ⟨true, [⟨5, 0, [9], []⟩], 0⟩ =
      .ok ⟨⟨0, ⟨0, 5, [9], []⟩, []⟩, false⟩ := rfl
  rcases (resume_safe ⟨Program.fib.module, 10000⟩).1 ⟨true, [⟨5, 0, [9], []⟩], 0⟩ with
    ⟨fault, reason, refused, -⟩ | ⟨invocation, begun, safe⟩
  · rw [resumed] at refused
    cases refused
  · rw [resumed] at begun
    cases begun
    rcases safe.faults {} _ ⟨1, {}, rfl⟩ with ⟨trap, function, pc, isTrapped, ordinary⟩
    exact ⟨trap, function, pc, ordinary, isTrapped ▸ rfl⟩

end Ferry.Engine
