import Ferry.Proofs.Engine.Ending
import Ferry.Proofs.Wire.ReadBack

/-!
# Journeys of a computation

A journey is what becomes of a computation that is paused time and again: each snapshot is written
as bytes, read somewhere else, and resumed there. Every leg of a journey has surroundings of its
own, so somebody may arm the signal before any boundary of any leg. A journey arrives exactly where
the uninterrupted computation ends, and it is never refused on the way.
-/

namespace Ferry

namespace Engine

variable {engine : Engine} {legs : Nat → Surroundings} {begun : Except Fault Invocation}

/-- What a leg of a journey begins with: at first what was begun at the start, and then the
continuation of the snapshot that was read back after the leg before. -/
inductive Travels (engine : Engine) (legs : Nat → Surroundings) (begun : Except Fault Invocation) :
    (leg : Nat) → Except Fault Invocation → Prop where
  | departs : Travels engine legs begun 0 begun
  | resumes {leg : Nat} {invocation : Except Fault Invocation} {snapshot received : Snapshot}
      (before : Travels engine legs begun leg invocation)
      (paused : engine.ComesTo (legs leg) invocation (.paused snapshot))
      (read : Snapshot.decode snapshot.encode = .ok received) :
      Travels engine legs begun (leg + 1) (engine.resume received)

/-- A leg of a journey ends with a snapshot. -/
def Captures (engine : Engine) (legs : Nat → Surroundings) (begun : Except Fault Invocation)
    (leg : Nat) (snapshot : Snapshot) : Prop :=
  ∃ invocation, engine.Travels legs begun leg invocation ∧
    engine.ComesTo (legs leg) invocation (.paused snapshot)

/-- A leg of a journey ends otherwise, and this is the end of the journey. -/
def Arrives (engine : Engine) (legs : Nat → Surroundings) (begun : Except Fault Invocation)
    (outcome : Outcome Fault) : Prop :=
  outcome.isPaused = false ∧ ∃ leg invocation, engine.Travels legs begun leg invocation ∧
    engine.ComesTo (legs leg) invocation outcome

/-- The snapshot of every machine on a course can be carried to another place: its offsets fit 32
bits, the lengths of its sequences fit 64, and its depth is within the limit. -/
structure Portable (engine : Engine) (begun : Except Fault Invocation) : Prop where
  addressable : engine.module.Addressable
  limit_lt : engine.maxCallDepth < UInt64.size
  operands_lt : ∀ machine, engine.Passes begun machine →
    ∀ activation ∈ machine.activations, activation.operands.length < UInt64.size
  regular : ∀ invocation, begun = .ok invocation →
    invocation.machine.Regular engine.module engine.maxCallDepth

namespace Portable

theorem passes_regular (portable : engine.Portable begun) {machine : Machine}
    (passes : engine.Passes begun machine) :
    machine.Regular engine.module engine.maxCallDepth := by
  rcases passes with ⟨invocation, count, rfl, passed⟩
  exact regular_after (portable.regular invocation rfl) passed

/-- The record of a machine on the course is resumed, and the engine goes on with this machine. -/
theorem resume_record (portable : engine.Portable begun) {machine : Machine}
    (passes : engine.Passes begun machine) :
    engine.resume machine.record = .ok ⟨machine, false⟩ :=
  Engine.resume_record (portable.passes_regular passes) portable.addressable

theorem countable_record (portable : engine.Portable begun) {machine : Machine}
    (passes : engine.Passes begun machine) : machine.record.Countable := by
  have regular := portable.passes_regular passes
  constructor
  · have depth_le := regular.depth_le
    have limit_lt := portable.limit_lt
    simp only [Machine.depth, Machine.record, Machine.activations, List.length_map,
      List.length_cons] at depth_le ⊢
    omega
  · refine List.forall_mem_map.mpr fun activation member => ⟨?_, ?_⟩
    · rcases regular.fitsIn.each activation member with ⟨function, -, slots, -⟩
      have locals_lt := function.locals.toNat_lt
      simp only [Activation.record, slots, UInt64.size]
      omega
    · rw [Activation.record, List.length_reverse]
      exact portable.operands_lt machine passes activation member

theorem decode_encode_record (portable : engine.Portable begun) {machine : Machine}
    (passes : engine.Passes begun machine) :
    Snapshot.decode machine.record.encode = .ok machine.record :=
  Snapshot.decode_encode machine.wellFormed_record (portable.countable_record passes)

end Portable

/-- Every leg after the first goes on with a machine on the course of the whole. -/
theorem Travels.onCourse (portable : engine.Portable begun) {leg : Nat}
    {invocation : Except Fault Invocation} (travels : engine.Travels legs begun leg invocation) :
    leg = 0 ∧ invocation = begun ∨
      0 < leg ∧ ∃ machine, engine.Passes begun machine ∧ invocation = .ok ⟨machine, false⟩ := by
  induction travels with
  | departs => exact .inl ⟨rfl, rfl⟩
  | @resumes leg invocation snapshot received before paused read ih =>
      rcases passes_of_paused paused with ⟨machine, passed, rfl⟩
      have passes : engine.Passes begun machine := by
        rcases ih with ⟨-, rfl⟩ | ⟨-, earlier, reached, rfl⟩
        · exact passed
        · rcases passed with ⟨_, count, same, further⟩
          cases same
          exact reached.after further
      rw [portable.decode_encode_record passes] at read
      cases read
      exact .inr ⟨Nat.succ_pos leg, machine, passes, portable.resume_record passes⟩

/-- The snapshots of a journey are records of machines on the course of the whole. -/
theorem Captures.onCourse (portable : engine.Portable begun) {leg : Nat} {snapshot : Snapshot}
    (captures : engine.Captures legs begun leg snapshot) :
    ∃ machine, engine.Passes begun machine ∧ snapshot = machine.record := by
  rcases captures with ⟨invocation, travels, paused⟩
  rcases passes_of_paused paused with ⟨machine, passed, rfl⟩
  rcases travels.onCourse portable with ⟨-, rfl⟩ | ⟨-, earlier, reached, rfl⟩
  · exact ⟨machine, passed, rfl⟩
  · rcases passed with ⟨_, count, same, further⟩
    cases same
    exact ⟨machine, reached.after further, rfl⟩

/-- A journey arrives only where the uninterrupted computation ends. -/
theorem Arrives.ends (portable : engine.Portable begun) {outcome : Outcome Fault}
    (arrives : engine.Arrives legs begun outcome) : engine.Ends begun outcome := by
  rcases arrives with ⟨notPaused, leg, invocation, travels, comes⟩
  have ends := ends_of_comesTo comes notPaused
  rcases travels.onCourse portable with ⟨-, rfl⟩ | ⟨-, machine, passes, rfl⟩
  · exact ends
  · exact passes.ends ends

/-- From every leg the journey arrives if there is a last instruction ahead: every leg but the first
runs at least one instruction. The induction is on the number of instructions that are left. -/
theorem arrives_of_travels (portable : engine.Portable begun) {last : Machine}
    {outcome : Outcome Fault} (ended : engine.end? last = some outcome) (left : Nat) {leg : Nat}
    {invocation : Invocation} (travels : engine.Travels legs begun leg (.ok invocation))
    (passes : engine.Passes begun invocation.machine) {rest : Nat}
    (passed : engine.after rest invocation.machine = some last)
    (rest_lt : rest < left + invocation.firstConsulted) : engine.Arrives legs begun outcome := by
  induction left using Nat.strongRecOn generalizing leg invocation rest with
  | ind left ih =>
      obtain ⟨⟨result, signal⟩, played⟩ :=
        run_isSome_of_end? (legs leg).arms 0 (legs leg).signal passed ended
      have comes : engine.ComesTo (legs leg) (.ok invocation) result := ⟨rest + 1, signal, played⟩
      rcases run_cases played with ⟨count, machine, reached, ⟨rfl, progress, -⟩ | stops⟩
      · have count_le := le_of_end? passed ended reached
        rcases Nat.exists_eq_add_of_le count_le with ⟨further, rfl⟩
        have onward : engine.after further machine = some last := by
          rw [after_add, reached] at passed
          exact passed
        have passesHere := passes.after reached
        have resumed := travels.resumes comes (portable.decode_encode_record passesHere)
        rw [portable.resume_record passesHere] at resumed
        have less : further < left := by omega
        exact ih further less resumed passesHere onward (Nat.lt_succ_self further)
      · rw [outcome_unique passed ended reached stops]
        exact ⟨not_isPaused_of_end? stops, leg, _, travels, comes⟩

/-- A journey arrives wherever the uninterrupted computation ends. -/
theorem Ends.arrives (portable : engine.Portable begun) {outcome : Outcome Fault}
    (ends : engine.Ends begun outcome) : engine.Arrives legs begun outcome := by
  rcases ends_iff.mp ends with ⟨fault, rfl, rfl⟩ | ⟨last, ⟨invocation, count, rfl, passed⟩, ended⟩
  · exact ⟨rfl, 0, _, .departs, 0, _, rfl⟩
  · exact arrives_of_travels portable ended (count + 1) .departs (passes_begun invocation) passed
      (by omega)

/-- A call that is paused, carried and resumed time and again ends if and only if the uninterrupted
call does, and with the same outcome. Each snapshot on the way is read back as it was, and none is
refused. The limit and the operand stacks have sizes of 64 bits, as everything in memory has. -/
theorem journey_transparent (engine : Engine) (entry : UInt32) (arguments : List Word)
    (legs : Nat → Surroundings) (addressable : engine.module.Addressable)
    (limit_pos : 1 ≤ engine.maxCallDepth) (limit_lt : engine.maxCallDepth < UInt64.size)
    (operands_lt : ∀ machine, engine.Passes (engine.call entry arguments) machine →
      ∀ activation ∈ machine.activations, activation.operands.length < UInt64.size) :
    (∀ outcome, engine.Arrives legs (engine.call entry arguments) outcome ↔
      engine.Ends (engine.call entry arguments) outcome) ∧
    ∀ leg snapshot, engine.Captures legs (engine.call entry arguments) leg snapshot →
      Snapshot.decode snapshot.encode = .ok snapshot ∧
        ∃ invocation, engine.resume snapshot = .ok invocation := by
  have portable : engine.Portable (engine.call entry arguments) :=
    ⟨addressable, limit_lt, operands_lt, fun _ called => regular_of_call limit_pos called⟩
  constructor
  · intro outcome
    exact ⟨fun arrives => arrives.ends portable, fun ends => ends.arrives portable⟩
  · intro leg snapshot captures
    rcases captures.onCourse portable with ⟨machine, passes, rfl⟩
    exact ⟨portable.decode_encode_record passes, _, portable.resume_record passes⟩

/-- Even if every leg runs one instruction only, the call arrives at its result. -/
theorem journey_transparent_fib :
    (Engine.mk Program.fib.module 10000).Arrives (fun _ => { signal := ⟨true⟩ })
      ((Engine.mk Program.fib.module 10000).call 0 [1]) (.completed [1]) := by
  refine ((journey_transparent ⟨Program.fib.module, 10000⟩ 0 [1] _ Program.addressable_fib
    (by decide) (by decide) ?_).1 _).mpr ⟨6, {}, rfl⟩
  rintro machine ⟨invocation, count, called, passed⟩
  cases called
  have ended : (Engine.mk Program.fib.module 10000).end? ⟨0, ⟨0, 5, [1], [1]⟩, []⟩ =
      some (.completed [1]) := rfl
  have count_le : count ≤ 5 := le_of_end? rfl ended passed
  have small : ∀ count ≤ 5, ∀ machine ∈ (Engine.mk Program.fib.module 10000).after count
      (.start 0 (.ofCode "fib" 1 Program.fibCode) [1]),
      ∀ activation ∈ machine.activations, activation.operands.length < UInt64.size := by
    decide
  exact small count count_le machine passed

end Engine

end Ferry
