import Ferry.Proofs.Engine.Ending
import Ferry.Proofs.Remote.Step

/-!
# A computation that two hosts share

What hosts hand to each other is one computation: what the first of them has begun. Whatever a host
keeps of it at any time, in a run, in a notice or in its result, is genuine: a machine on the course
of the computation, the record of such a machine, or results with which it ends.
-/

namespace Ferry

/-- A computation: the id under which hosts know it, the program and the limit they have in common,
and what the first of them begins. -/
structure Computation where
  id : SessionId
  program : Program
  maxCallDepth : Nat
  origin : Except Fault Invocation
  /-- What is begun has the shape of the module. -/
  fits : ∀ invocation, origin = .ok invocation → invocation.machine.FitsIn program.module

namespace Computation

variable {computation : Computation}

/-- The engine of the hosts. -/
def engine (computation : Computation) : Engine :=
  ⟨computation.program.module, computation.maxCallDepth⟩

/-- A machine is on the course of the computation. In a body that is too long for the offsets of a
frame nothing can be said about that. -/
def Reaches (computation : Computation) (machine : Machine) : Prop :=
  computation.program.module.Addressable → computation.engine.Passes computation.origin machine

/-- Uninterrupted, the computation ends with these results. -/
def Yields (computation : Computation) (results : List Word) : Prop :=
  computation.program.module.Addressable →
    computation.engine.Ends computation.origin (.completed results)

/-- A snapshot is the record of a machine on the course. -/
def Shows (computation : Computation) (snapshot : Snapshot) : Prop :=
  ∃ machine, computation.Reaches machine ∧ snapshot = machine.record

/-- A configuration has the program and the limit of the computation. -/
structure Suits (computation : Computation) (config : Config) : Prop where
  program : config.program = computation.program
  limit : config.maxCallDepth = computation.maxCallDepth

theorem Suits.engine {config : Config} (suits : computation.Suits config) :
    config.engine = computation.engine := by
  rw [Config.engine, suits.program, suits.limit, Computation.engine]

theorem Reaches.next {machine next : Machine} (reaches : computation.Reaches machine)
    (goes : computation.engine.next? machine = some next) : computation.Reaches next := by
  intro addressable
  exact (reaches addressable).next goes

theorem Reaches.yields {machine : Machine} {results : List Word}
    (reaches : computation.Reaches machine)
    (ended : computation.engine.end? machine = some (.completed results)) :
    computation.Yields results := by
  intro addressable
  exact Engine.ends_iff.mpr (.inr ⟨machine, reaches addressable, ended⟩)

theorem Shows.valid {snapshot : Snapshot} (shows : computation.Shows snapshot) :
    snapshot.valid = true := by
  rcases shows with ⟨machine, -, rfl⟩
  rfl

theorem Shows.check {snapshot : Snapshot} (shows : computation.Shows snapshot) :
    snapshot.check = .ok () := by
  rcases shows with ⟨machine, -, rfl⟩
  rw [Snapshot.check, (Snapshot.defect?_eq_none_iff _).mpr machine.wellFormed_record]

/-- If the engine goes on with a snapshot, then with the machine that the snapshot shows. -/
theorem Shows.resume {snapshot : Snapshot} {invocation : Invocation}
    (shows : computation.Shows snapshot)
    (resumed : computation.engine.resume snapshot = .ok invocation) :
    computation.Reaches invocation.machine := by
  rcases shows with ⟨machine, reaches, rfl⟩
  rcases Engine.resume_eq_ok_iff.mp resumed with ⟨-, -, recordable, same⟩
  intro addressable
  rcases reaches addressable with ⟨first, count, begun, passed⟩
  have fits := Engine.fitsIn_after (computation.fits first begun) passed
  rw [recordable.record_inj (addressable.recordable fits) same]
  exact ⟨first, count, begun, passed⟩

end Computation

namespace Remote

variable {computation : Computation} {config : Config}

/-- What an invocation comes to is genuine; a fault is not told. -/
def Genuine (computation : Computation) : Outcome Fault → Prop
  | .completed results => computation.Yields results
  | .paused snapshot => computation.Shows snapshot
  | .faulted _ => True

/-- What a run keeps of the computation at a stage is genuine. -/
def Stage.Genuine (computation : Computation) (config : Config) : Stage → Prop
  | .spawned snapshot => ∀ invocation, Host.invoke config snapshot = .ok invocation →
      computation.Reaches invocation.machine
  | .invoking _ invocation => computation.Reaches invocation.machine
  | .returned outcome => Remote.Genuine computation outcome
  | .handing => True
  | .telling results => computation.Yields results

/-- A notice does not tell of a failure, and of results only after the end of the computation. -/
def Notice.Genuine (computation : Computation) (phase : Phase) : Notice → Prop
  | .completed results => computation.Yields results ∧ phase = .completed
  | .finished => True
  | .failed _ => False

/-- The main loop does not end with a failure, and with results only after the end of the
computation. What it is to begin is the computation. -/
def Loop.Genuine (computation : Computation) (config : Config) (phase : Phase) : Loop → Prop
  | .starting initial => config.startImmediately = true →
      (Stage.spawned initial).Genuine computation config
  | .waiting | .grace _ => True
  | .ended (.ok (.completed results)) => computation.Yields results ∧ phase = .completed
  | .ended (.ok .finished) => True
  | .ended _ => False

/-- A message hands over the computation, or tells of its end. -/
def Call.Genuine (computation : Computation) : Call → Prop
  | .execute request => ∃ snapshot, computation.Shows snapshot ∧
      request = .resume computation.id computation.program.name snapshot
  | .finish request => request = ⟨computation.id⟩

/-- A reply tells that the computation was taken over, or that the notice of its end has come. -/
def Answer.Genuine : Answer → Prop
  | .execute reply => reply = .ok ⟨true⟩
  | .finish reply => reply = .ok ⟨⟩

/-- A run that gets on with its invocation stays on the course. -/
theorem Stage.Next.genuine {before after : Stage} (next : before.Next config after)
    (suits : computation.Suits config) (genuine : before.Genuine computation config) :
    after.Genuine computation config := by
  cases next with
  | begins invoked => exact genuine _ invoked
  | fails invoked => trivial
  | goes goes =>
      rw [suits.engine] at goes
      exact genuine.next goes
  | pauses => exact ⟨_, genuine, rfl⟩
  | @ends guard invocation outcome ended =>
      have notPaused := Engine.not_isPaused_of_end? ended
      rw [suits.engine] at ended
      cases outcome with
      | completed results => exact Computation.Reaches.yields genuine ended
      | paused snapshot => contradiction
      | faulted fault => trivial

/-- A run that goes on with a genuine snapshot is on the course. -/
theorem Stage.genuine_spawned {snapshot : Snapshot} (suits : computation.Suits config)
    (shows : computation.Shows snapshot) :
    (Stage.spawned (some snapshot)).Genuine computation config := by
  intro invocation invoked
  rw [Host.invoke, Option.filter_some, if_pos shows.valid, suits.engine] at invoked
  exact shows.resume invoked

theorem Notice.Genuine.mono {phase later : Phase} {notice : Notice}
    (genuine : notice.Genuine computation phase) (stays : phase = .completed → later = .completed) :
    notice.Genuine computation later := by
  cases notice with
  | completed results => exact ⟨genuine.1, stays genuine.2⟩
  | finished => trivial
  | failed failure => exact genuine.elim

theorem Loop.Genuine.mono {phase later : Phase} {loop : Loop}
    (genuine : loop.Genuine computation config phase)
    (stays : phase = .completed → later = .completed) : loop.Genuine computation config later := by
  unfold Loop.Genuine at genuine ⊢
  split at genuine
  · exact genuine
  · trivial
  · trivial
  · exact ⟨genuine.1, stays genuine.2⟩
  · trivial
  · exact genuine.elim

end Remote

end Ferry
