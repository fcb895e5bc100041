import Ferry.Machine.Resumption
import Ferry.Outcome
import Ferry.Signal

/-!
# The engine

An engine runs a module under a limit on live activations. A call or a resumption begins an
invocation. An invocation consults the signal before every instruction, except that a resumed one
does not consult it before its first: that boundary was used up by the capture, so every resumed
invocation runs at least one instruction. An armed signal ends the invocation with a snapshot.

`Engine.run` plays an invocation to its end while a schedule says at which boundaries somebody arms
the signal; boundaries are counted from zero in each invocation.
-/

namespace Ferry

/-- Why the engine could not start a computation, or not finish it. -/
inductive Fault where
  /-- The function to call does not exist. -/
  | unknownEntry (index : UInt32)
  /-- The function to call takes another number of arguments. -/
  | badArguments (function : String) (expected got : Nat)
  /-- The snapshot cannot be resumed. -/
  | refused (refusal : Refusal)
  /-- The frames of the snapshot do not fit the module or the limit. -/
  | unrestorable (trap : Trap)
  /-- An instruction trapped. -/
  | trapped (trap : Trap) (function : String) (pc : Nat)
  deriving DecidableEq, Repr

namespace Fault

/-- The description of a fault. -/
def message : Fault → String
  | unknownEntry index => (Trap.unknownFunction index).message
  | badArguments function expected got =>
      s!"{(Trap.argumentMismatch expected got).message} calling {function}"
  | refused refusal => s!"cannot resume: {refusal.message}"
  | unrestorable trap => s!"cannot resume: {trap.message}"
  | trapped trap function pc => s!"{trap.message} in {function} at pc {pc}"

/-- A fault ends a run as a failure of the engine. -/
def toFailure (fault : Fault) : Failure := .engineFault fault.message

end Fault

/-- A module and the limit under which it runs. -/
structure Engine where
  module : Module
  /-- The greatest number of live activations. -/
  maxCallDepth : Nat := 10000

/-- A computation that the engine has begun. -/
structure Invocation where
  /-- The state of the computation. -/
  machine : Machine
  /-- Whether the signal is consulted before the next instruction. -/
  consults : Bool
  deriving DecidableEq, Repr

/-- Where an invocation stands after one boundary. -/
inductive Turn where
  | going (invocation : Invocation)
  | ended (outcome : Outcome Fault)
  deriving DecidableEq, Repr

namespace Engine

/-- Begins a call. -/
def call (engine : Engine) (entry : UInt32) (arguments : List Word) : Except Fault Invocation :=
  match engine.module.function? entry with
  | none => .error (.unknownEntry entry)
  | some function =>
      if arguments.length ≠ function.params.toNat then
        .error (.badArguments function.name function.params.toNat arguments.length)
      else .ok ⟨.start entry function arguments, true⟩

/-- Begins the continuation of a snapshot. -/
def resume (engine : Engine) (snapshot : Snapshot) : Except Fault Invocation :=
  match Resumption.ofSnapshot? snapshot engine.module.size with
  | .error refusal => .error (.refused refusal)
  | .ok resumption =>
      match resumption.machine engine.module engine.maxCallDepth with
      | .error trap => .error (.unrestorable trap)
      | .ok machine => .ok ⟨machine, false⟩

/-- The name of a function, for the report of a trap. -/
def functionName (engine : Engine) (index : UInt32) : String :=
  match engine.module.function? index with
  | some function => function.name
  | none => functionText index

/-- Runs the next instruction. -/
def advance (engine : Engine) (machine : Machine) : Turn :=
  match machine.step engine.module engine.maxCallDepth with
  | .running next => .going ⟨next, true⟩
  | .halted results => .ended (.completed results)
  | .trapped trap site =>
      .ended (.faulted (.trapped trap (engine.functionName site.function) site.pc))

/-- Passes one boundary: pauses if the signal is consulted and armed, and otherwise runs the next
instruction. -/
def turn (engine : Engine) (signal : Signal) (invocation : Invocation) : Turn × Signal :=
  if invocation.consults && signal.armed then
    (.ended (.paused invocation.machine.record), signal.take.2)
  else (engine.advance invocation.machine, signal)

/-- Plays an invocation to its end, if that takes at most `fuel` boundaries. The signal is armed
right before boundary `k` if `arms k`, and `boundary` is the number of the next one. -/
def run (engine : Engine) (arms : Nat → Bool) :
    (fuel boundary : Nat) → Signal → Invocation → Option (Outcome Fault × Signal)
  | 0, _, _, _ => none
  | fuel + 1, boundary, signal, invocation =>
      match engine.turn (signal.armIf (arms boundary)) invocation with
      | (.going next, signal) => run engine arms fuel (boundary + 1) signal next
      | (.ended outcome, signal) => some (outcome, signal)

/-- Plays what `call` or `resume` gives; an invocation that could not begin leaves the signal as it
is. -/
def play (engine : Engine) (arms : Nat → Bool) (fuel : Nat) (signal : Signal)
    (begun : Except Fault Invocation) : Option (Outcome Fault × Signal) :=
  match begun with
  | .error fault => some (.faulted fault, signal)
  | .ok invocation => engine.run arms fuel 0 signal invocation

end Engine

end Ferry
