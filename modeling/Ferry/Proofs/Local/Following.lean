import Ferry.Proofs.Engine.Length
import Ferry.Proofs.Local.Step

/-!
# How a local host follows the uninterrupted computation

However often a computation pauses, a local host that nobody stops carries it on along the course of
the uninterrupted one. Where the host stands is told by the number of instructions that it has
executed: at a gate it holds the record of the machine after so many of them, in an invocation it
has that machine before it, and at its end it has the outcome, or it has left the record in a file.
-/

namespace Ferry.Local

variable {host next : Local} {event : Event} {engine : Engine} {begun : Except Fault Invocation}
  {directory : Directory} {passed : Nat}

/-- How many instructions a host executes in an event: one if it passes a boundary without a pause.
-/
def executes (host : Local) : Event → Nat
  | .proceed =>
      match host.stage with
      | .running _ invocation => if host.pauses invocation then 0 else 1
      | _ => 0
  | _ => 0

theorem executes_of_gate {pending : Option Snapshot} (gate : host.stage = .gate pending)
    (event : Event) : host.executes event = 0 := by
  cases event <;> simp [executes, gate]

theorem executes_of_pauses {guard : Nat} {invocation : Invocation}
    (running : host.stage = .running guard invocation) (pauses : host.pauses invocation = true) :
    host.executes .proceed = 0 := by
  simp [executes, running, pauses]

theorem executes_of_quiet {guard : Nat} {invocation : Invocation}
    (running : host.stage = .running guard invocation) (quiet : host.pauses invocation = false) :
    host.executes .proceed = 1 := by
  simp [executes, running, quiet]

/-- Neither does the operator stop the run nor leave while gates have to be opened. -/
structure Attends (host : Local) (event : Event) : Prop where
  patient : event ≠ .key .abort
  present : host.config.policy.isManual = true →
    host.keyboardOpen = true ∧ event ≠ .closeKeyboard

/-- Nobody ends the run of an attended host. -/
theorem Attends.not_stopped (attends : host.Attends event) :
    ¬ (event = .key .abort ∨ host.config.policy.isManual = true ∧ host.keyboardOpen = false) := by
  rintro (aborted | ⟨guarded, gone⟩)
  · exact attends.patient aborted
  · rw [(attends.present guarded).1] at gone
    contradiction

/-- Where a host stands that has carried on a computation for so many instructions. The directory is
the one that it has found. -/
inductive Follows (engine : Engine) (begun : Except Fault Invocation) (directory : Directory)
    (passed : Nat) (host : Local) : Prop where
  /-- Before a call. -/
  | fresh (gate : host.stage = .gate none) (untouched : host.directory = directory)
      (nothing : passed = 0)
      (call : begun = engine.call host.config.program.entry host.config.arguments)
  /-- Before the continuation of a machine from its record. -/
  | paused {machine : Machine} (gate : host.stage = .gate (some machine.record))
      (untouched : host.directory = directory) (stands : engine.StandsAt begun passed machine)
  /-- In an invocation. -/
  | running {guard : Nat} {invocation : Invocation}
      (running : host.stage = .running guard invocation) (untouched : host.directory = directory)
      (stands : engine.StandsAt begun passed invocation.machine)
  /-- The computation has returned its results. -/
  | completed {results : List Word} (ended : host.stage = .ended (.ok (.completed results)))
      (phase : host.session.phase = .completed)
      (ends : engine.EndsAfter begun passed (.completed results))
  /-- The computation has ended with a fault. -/
  | faulted {fault : Fault} (ended : host.stage = .ended (.error fault.toFailure))
      (ends : engine.EndsAfter begun passed (.faulted fault))
  /-- The record of the machine has been written to a file. -/
  | exported {size : Nat} {machine : Machine}
      (ended : host.stage = .ended (.ok (.exported host.config.exportPath)))
      (leaves : host.config.exportOnly = true) (stands : engine.StandsAt begun passed machine)
      (written : SnapshotFile.write directory host.config.exportPath host.config.program.name
        machine.record = (.ok size, host.directory))
  /-- The record of the machine could not be written to its file. -/
  | unwritten {machine : Machine} {failure : Failure}
      (ended : host.stage = .ended (.error failure)) (leaves : host.config.exportOnly = true)
      (stands : engine.StandsAt begun passed machine)
      (refused : SnapshotFile.write directory host.config.exportPath host.config.program.name
        machine.record = (.error failure, host.directory))

/-- Where a host stands does not depend on its signal, its clock and its operator. -/
theorem Follows.congr (follows : host.Follows engine begun directory passed)
    (stage : next.stage = host.stage) (config : next.config = host.config)
    (session : next.session = host.session) (files : next.directory = host.directory) :
    next.Follows engine begun directory passed := by
  cases follows with
  | fresh gate untouched nothing call =>
      rw [← config] at call
      exact .fresh (stage.trans gate) (files.trans untouched) nothing call
  | paused gate untouched stands =>
      exact .paused (stage.trans gate) (files.trans untouched) stands
  | running running untouched stands =>
      exact .running (stage.trans running) (files.trans untouched) stands
  | completed ended phase ends =>
      rw [← session] at phase
      exact .completed (stage.trans ended) phase ends
  | faulted ended ends => exact .faulted (stage.trans ended) ends
  | exported ended leaves stands written =>
      rw [← config] at ended leaves
      rw [← config, ← files] at written
      exact .exported (stage.trans ended) leaves stands written
  | unwritten ended leaves stands refused =>
      rw [← config] at leaves
      rw [← config, ← files] at refused
      exact .unwritten (stage.trans ended) leaves stands refused

/-- At its first gate a host is about to call, and the call is the computation. -/
theorem Follows.calls (follows : host.Follows engine begun directory passed)
    (gate : host.stage = .gate none) (suits : host.config.engine = engine) :
    Host.invoke host.config none = begun ∧ passed = 0 := by
  cases follows with
  | fresh _ _ nothing call =>
      rw [call, ← suits]
      exact ⟨rfl, nothing⟩
  | paused paused => simp [gate] at paused
  | running running => simp [gate] at running
  | completed ended | faulted ended | exported ended | unwritten ended => simp [gate] at ended

/-- At a later gate a host is about to go on with the machine at which the computation stands. -/
theorem Follows.resumes (follows : host.Follows engine begun directory passed) {snapshot : Snapshot}
    (gate : host.stage = .gate (some snapshot)) (suits : host.config.engine = engine)
    (resumable : engine.Resumable begun) :
    ∃ machine, Host.invoke host.config (some snapshot) = .ok ⟨machine, false⟩ ∧
      engine.StandsAt begun passed machine := by
  cases follows with
  | fresh fresh => simp [gate] at fresh
  | @paused machine paused _ stands =>
      rw [gate] at paused
      cases paused
      refine ⟨machine, ?_, stands⟩
      rw [← resumable machine stands.passes, ← suits]
      rfl
  | running running => simp [gate] at running
  | completed ended | faulted ended | exported ended | unwritten ended => simp [gate] at ended

/-- In an invocation a host has the machine before it at which the computation stands. -/
theorem Follows.stands (follows : host.Follows engine begun directory passed) {guard : Nat}
    {invocation : Invocation} (running : host.stage = .running guard invocation) :
    engine.StandsAt begun passed invocation.machine := by
  cases follows with
  | running same _ stands =>
      rw [running] at same
      cases same
      exact stands
  | fresh gate | paused gate => simp [running] at gate
  | completed ended | faulted ended | exported ended | unwritten ended => simp [running] at ended

/-- Until its end a host leaves the files as they are. -/
theorem Follows.untouched (follows : host.Follows engine begun directory passed)
    (goes : host.result? = none) : host.directory = directory := by
  cases follows with
  | fresh _ untouched | paused _ untouched | running _ untouched => exact untouched
  | completed ended | faulted ended | exported ended | unwritten ended =>
      simp [result?, ended] at goes

/-- A host that launches an invocation stands where it stood at the gate. -/
theorem Launched.follows {pending : Option Snapshot} (launched : host.Launched pending next)
    (gate : host.stage = .gate pending) (suits : host.config.engine = engine)
    (resumable : engine.Resumable begun)
    (free : host.session.phase = .idle ∨ host.session.phase = .paused ∧ pending.isSome = true)
    (follows : host.Follows engine begun directory passed) :
    next.Follows engine begun directory passed := by
  have untouched : host.directory = directory := follows.untouched (by rw [result?, gate])
  cases launched with
  | misfits noEdge => exact absurd (mayLaunch_of_free free) (ne_true_of_eq_false noEdge)
  | begins _ invoked =>
      cases pending with
      | none =>
          obtain ⟨same, rfl⟩ := follows.calls gate suits
          rw [← same, invoked]
          exact .running rfl untouched (Engine.standsAt_begun _)
      | some snapshot =>
          obtain ⟨machine, resumed, stands⟩ := follows.resumes gate suits resumable
          rw [invoked] at resumed
          cases resumed
          exact .running rfl untouched stands
  | fails _ invoked =>
      cases pending with
      | none =>
          obtain ⟨same, rfl⟩ := follows.calls gate suits
          exact .faulted rfl (.refused (same.symm.trans invoked))
      | some snapshot =>
          obtain ⟨machine, resumed, -⟩ := follows.resumes gate suits resumable
          rw [invoked] at resumed
          cases resumed

/-- A pause keeps the machine, in the record at the gate or in a file. -/
theorem Settled.follows_of_paused {machine : Machine}
    (settled : host.Settled (.paused machine.record) next)
    (active : host.session.phase.isActive = true) (untouched : host.directory = directory)
    (stands : engine.StandsAt begun passed machine) :
    next.Follows engine begun directory passed := by
  cases settled with
  | pauses => exact .paused rfl untouched stands
  | exports _ leaves written => exact .exported rfl leaves stands (untouched ▸ written)
  | unwritten _ leaves refused => exact .unwritten rfl leaves stands (untouched ▸ refused)
  | misfits inactive =>
      rw [active] at inactive
      contradiction

/-- The last instruction gives the outcome of the uninterrupted computation. -/
theorem Settled.follows_of_ended {machine : Machine} {outcome : Outcome Fault}
    (settled : host.Settled outcome next) (active : host.session.phase.isActive = true)
    (stands : engine.StandsAt begun passed machine)
    (ended : engine.end? machine = some outcome) :
    next.Follows engine begun directory (passed + 1) := by
  cases settled with
  | completes => exact .completed rfl rfl (.executed stands ended)
  | pauses | exports | unwritten => cases Engine.not_isPaused_of_end? ended
  | faults => exact .faulted rfl (.executed stands ended)
  | misfits inactive =>
      rw [active] at inactive
      contradiction

/-- Every event leads along the course, by as many instructions as are executed in it. -/
theorem Moves.follows (moves : host.Moves event next) (attends : host.Attends event)
    (orderly : host.Orderly) (suits : host.config.engine = engine)
    (resumable : engine.Resumable begun) (follows : host.Follows engine begun directory passed) :
    next.Follows engine begun directory (passed + host.executes event) := by
  have untouched : ∀ {guard invocation}, host.stage = .running guard invocation →
      host.directory = directory :=
    fun running => follows.untouched (by rw [result?, running])
  cases moves with
  | launches gate opens launched =>
      rw [executes_of_gate gate, Nat.add_zero]
      cases opens <;>
        exact launched.follows gate suits resumable (orderly.gate _ gate)
          (follows.congr rfl rfl rfl rfl)
  | goes running quiet goes =>
      rw [executes_of_quiet running quiet]
      exact .running rfl (untouched running) ((follows.stands running).next (suits ▸ goes))
  | settles running ended settled =>
      have active := orderly.running _ _ running
      rcases ended with ⟨pauses, rfl⟩ | ⟨quiet, ended⟩
      · rw [executes_of_pauses running pauses]
        exact settled.follows_of_paused active (untouched running) (follows.stands running)
      · rw [executes_of_quiet running quiet]
        exact settled.follows_of_ended active (follows.stands running) (suits ▸ ended)
  | aborts cause => exact absurd cause attends.not_stopped
  | queues | requests | closes | elapses => exact follows.congr rfl rfl rfl rfl

/-- A host has ended with an outcome of its computation. -/
def Reports (host : Local) : Outcome Fault → Prop
  | .completed results =>
      host.result? = some (.ok (.completed results)) ∧ host.session.phase = .completed
  | .paused _ => False
  | .faulted fault => host.result? = some (.error fault.toFailure)

/-- A host that has ended reports the outcome of the computation, or it has left it in a file or
tried to. -/
theorem Follows.reports_or_leaves (follows : host.Follows engine begun directory passed)
    (ended : host.result?.isSome = true) :
    (∃ outcome, host.Reports outcome ∧ engine.EndsAfter begun passed outcome) ∨
      host.config.exportOnly = true ∧ ∃ machine written,
        engine.StandsAt begun passed machine ∧
        SnapshotFile.write directory host.config.exportPath host.config.program.name
          machine.record = (written, host.directory) ∧
        host.result? = some (written.map fun _ => .exported host.config.exportPath) := by
  cases follows with
  | fresh gate | paused gate => simp [result?, gate] at ended
  | running running => simp [result?, running] at ended
  | @completed results stage phase ends =>
      exact .inl ⟨.completed results, ⟨by rw [result?, stage], phase⟩, ends⟩
  | @faulted fault stage ends =>
      exact .inl ⟨.faulted fault, by rw [Reports, result?, stage], ends⟩
  | exported stage leaves stands written =>
      exact .inr ⟨leaves, _, _, stands, written, by rw [result?, stage]; rfl⟩
  | unwritten stage leaves stands refused =>
      exact .inr ⟨leaves, _, _, stands, refused, by rw [result?, stage]; rfl⟩

/-- A host that does not leave its computation in a file reports its outcome. -/
theorem Follows.reports (follows : host.Follows engine begun directory passed)
    (stays : host.config.exportOnly = false) (ended : host.result?.isSome = true) :
    ∃ outcome, host.Reports outcome ∧ engine.EndsAfter begun passed outcome := by
  rcases follows.reports_or_leaves ended with reports | ⟨leaves, -⟩
  · exact reports
  · rw [stays] at leaves
    contradiction

end Ferry.Local
