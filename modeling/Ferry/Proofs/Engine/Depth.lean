import Ferry.Program.Builtin
import Ferry.Proofs.Engine.Ending

/-!
# The limit on live activations

A call from a running activation is refused once as many activations are live as the limit allows, and
a snapshot is refused if it has more frames than that. Under every limit but zero a computation then
stays within the limit, and the engine resumes each snapshot that it has captured. The activation with
which a call begins is judged by nobody: under a limit of zero it runs, and cannot be resumed.
-/

namespace Ferry.Engine

variable {engine : Engine}

/-- A bound that is not under the limit is kept by every instruction. -/
theorem depth_le_after {bound count : Nat} {origin machine : Machine}
    (limit_le : engine.maxCallDepth ≤ bound) (at_origin : origin.depth ≤ bound)
    (passed : engine.after count origin = some machine) : machine.depth ≤ bound := by
  apply after_induction at_origin _ passed
  intro between next within stepped
  obtain ⟨_, _, -, -, advanced⟩ :=
    Machine.advanced_of_advance (Machine.step_eq_running_iff.mp stepped)
  exact advanced.depth_le limit_le within

/-- A run stays within the limit, and what it captures can be resumed under the same limit. -/
structure Contained (engine : Engine) (begun : Except Fault Invocation) : Prop where
  depth_le : ∀ machine, engine.Passes begun machine → machine.depth ≤ engine.maxCallDepth
  resumes : ∀ around snapshot, engine.ComesTo around begun (.paused snapshot) →
    ∃ invocation, engine.resume snapshot = .ok invocation

/-- What an engine can be asked to begin. -/
inductive Task where
  | call (entry : UInt32) (arguments : List Word)
  | resume (snapshot : Snapshot)
  deriving DecidableEq, Repr

/-- Begins a task. -/
def begin (engine : Engine) : Task → Except Fault Invocation
  | .call entry arguments => engine.call entry arguments
  | .resume snapshot => engine.resume snapshot

/-- A task begins with a machine that fits the module. -/
theorem fitsIn_of_begin {task : Task} {invocation : Invocation}
    (begun : engine.begin task = .ok invocation) : invocation.machine.FitsIn engine.module := by
  cases task with
  | call entry arguments => exact fitsIn_of_call begun
  | resume snapshot => exact (resume_eq_ok_iff.mp begun).2.1.fitsIn

/-- Under every limit but zero all machines on the course of a task are regular. -/
theorem regular_of_passes (limit_pos : 1 ≤ engine.maxCallDepth) {task : Task} {machine : Machine}
    (passes : engine.Passes (engine.begin task) machine) :
    machine.Regular engine.module engine.maxCallDepth := by
  rcases passes with ⟨invocation, count, begun, passed⟩
  cases task with
  | call entry arguments => exact regular_after (regular_of_call limit_pos begun) passed
  | resume snapshot => exact regular_after (resume_eq_ok_iff.mp begun).2.1 passed

theorem contained_begin (limit_pos : 1 ≤ engine.maxCallDepth) (task : Task) :
    engine.Contained (engine.begin task) := by
  constructor
  · intro machine passes
    exact (regular_of_passes limit_pos passes).depth_le
  · intro around snapshot paused
    rcases passes_of_paused paused with ⟨machine, passes, rfl⟩
    have regular := regular_of_passes limit_pos passes
    exact ⟨_, resume_record_of_depth_le regular.fitsIn regular.depth_le⟩

/-- Under a limit of zero nothing is resumed. -/
theorem not_resumes_of_noRoom (noRoom : engine.maxCallDepth = 0) (snapshot : Snapshot) :
    ∃ fault, engine.resume snapshot = .error fault := by
  cases resumed : engine.resume snapshot with
  | error fault => exact ⟨fault, rfl⟩
  | ok invocation =>
      have depth_le := (resume_eq_ok_iff.mp resumed).2.1.depth_le
      rw [noRoom] at depth_le
      exact absurd depth_le (Nat.not_succ_le_zero _)

/-- Under a limit of zero the activation with which a call begins is the only one, and it cannot be
resumed. -/
theorem alone_of_call (noRoom : engine.maxCallDepth = 0) {entry : UInt32} {arguments : List Word}
    {machine : Machine} (passes : engine.Passes (engine.call entry arguments) machine) :
    machine.depth = 1 ∧
      engine.resume machine.record = .error (.unrestorable (.callDepthExceeded 0)) := by
  rcases passes with ⟨invocation, count, called, passed⟩
  have fits := fitsIn_after (fitsIn_of_call called) passed
  rcases start_of_call called with ⟨function, -, -, rfl⟩
  have at_start : (Machine.start entry function arguments).depth ≤ 1 := Nat.le_refl 1
  have depth_le : machine.depth ≤ 1 :=
    depth_le_after (by rw [noRoom]; exact Nat.zero_le 1) at_start passed
  have depth_eq : machine.depth = 1 := Nat.le_antisymm depth_le (Nat.le_add_left 1 _)
  refine ⟨depth_eq, ?_⟩
  have tooDeep : engine.maxCallDepth < machine.depth := by
    rw [noRoom, depth_eq]
    exact Nat.one_pos
  rw [resume_record_of_lt_depth fits tooDeep, noRoom]

/-- Under every limit but zero, the limit bounds what calls and continuations hold, and is the same for
both. Under a limit of zero nothing is resumed, and a call holds one activation all along, so that each
of its snapshots is refused for its depth. -/
theorem depth_contained (engine : Engine) :
    (1 ≤ engine.maxCallDepth → ∀ task, engine.Contained (engine.begin task)) ∧
    (engine.maxCallDepth = 0 →
      (∀ snapshot, ∃ fault, engine.resume snapshot = .error fault) ∧
      ∀ entry arguments,
        (∀ machine, engine.Passes (engine.call entry arguments) machine → machine.depth = 1) ∧
        ∀ around snapshot, engine.ComesTo around (engine.call entry arguments) (.paused snapshot) →
          engine.resume snapshot = .error (.unrestorable (.callDepthExceeded 0))) := by
  refine ⟨contained_begin, fun noRoom => ⟨not_resumes_of_noRoom noRoom, ?_⟩⟩
  intro entry arguments
  constructor
  · intro machine passes
    exact (alone_of_call noRoom passes).1
  · intro around snapshot paused
    rcases passes_of_paused paused with ⟨machine, passes, rfl⟩
    exact (alone_of_call noRoom passes).2

/-- A call that has used up its limit of two is captured, and its snapshot is resumed. -/
theorem depth_contained_fib :
    1 ≤ (Engine.mk Program.fib.module 2).maxCallDepth ∧
      (Engine.mk Program.fib.module 2).ComesTo { arms := (· == 8) }
        ((Engine.mk Program.fib.module 2).begin (.call 0 [2]))
        (.paused ⟨true, [⟨0, 0, [1], []⟩, ⟨10, 0, [2], []⟩], 0⟩) ∧
      ∃ invocation, (Engine.mk Program.fib.module 2).resume
        ⟨true, [⟨0, 0, [1], []⟩, ⟨10, 0, [2], []⟩], 0⟩ = .ok invocation := by
  have limit_pos : 1 ≤ (Engine.mk Program.fib.module 2).maxCallDepth := by decide
  have paused : (Engine.mk Program.fib.module 2).ComesTo { arms := (· == 8) }
      ((Engine.mk Program.fib.module 2).begin (.call 0 [2]))
      (.paused ⟨true, [⟨0, 0, [1], []⟩, ⟨10, 0, [2], []⟩], 0⟩) := ⟨9, {}, rfl⟩
  exact ⟨limit_pos, paused, ((depth_contained _).1 limit_pos (.call 0 [2])).resumes _ _ paused⟩

/-- Under a limit of zero a call holds one activation, is captured, and its snapshot is refused for its
depth; left alone it even completes. -/
theorem called_without_room :
    ∃ invocation, (Engine.mk Program.fib.module 0).call 0 [1] = .ok invocation ∧
      (Engine.mk Program.fib.module 0).maxCallDepth < invocation.machine.depth ∧
      (Engine.mk Program.fib.module 0).ComesTo { signal := ⟨true⟩ } (.ok invocation)
        (.paused ⟨true, [⟨0, 0, [1], []⟩], 0⟩) ∧
      (Engine.mk Program.fib.module 0).resume ⟨true, [⟨0, 0, [1], []⟩], 0⟩ =
        .error (.unrestorable (.callDepthExceeded 0)) ∧
      (Engine.mk Program.fib.module 0).Ends (.ok invocation) (.completed [1]) :=
  ⟨_, rfl, by decide, ⟨1, {}, rfl⟩, rfl, ⟨6, {}, rfl⟩⟩

end Ferry.Engine
