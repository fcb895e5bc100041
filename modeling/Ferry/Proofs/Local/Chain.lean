import Ferry.Proofs.Artifact.Files
import Ferry.Proofs.Local.Progress

/-!
# Local hosts that hand a computation on in files

A host that leaves its computation in a file can be followed by a host that starts from this file,
in another process and perhaps in another place, and that one by a third. Such a chain of hosts
carries on one computation: each of them finds in its file the record of the machine at which the
one before it stopped. The last one reports what a single process would have reported.

Files are taken to be faithful: one that a host has to write can be written, and the next host finds
the bytes there that were written.
-/

namespace Ferry

/-- The engine of a program in a single process. -/
def Program.engine (program : Program) (limit : Nat) : Engine := ⟨program.module, limit⟩

/-- The call of a program in a single process. -/
def Program.call (program : Program) (limit : Nat) (arguments : List Word) :
    Except Fault Invocation :=
  (program.engine limit).call program.entry arguments

namespace Local

variable {host next : Local} {event : Event} {program : Program} {arguments : List Word}
  {limit : Nat}

/-- A host that may take part in a chain: it runs the program under the limit, waits for nobody, and
the file for its snapshot can be written. -/
structure Partakes (program : Program) (limit : Nat) (host : Host) (directory : Directory) :
    Prop where
  idle : host.session.phase = .idle
  program_eq : host.config.program = program
  limit_eq : host.config.maxCallDepth = limit
  unattended : host.config.policy.isManual = false
  stores : SnapshotFile.Stores directory host.config.exportPath

/-- The last host of a chain, at any time of its run. -/
inductive Chain (program : Program) (arguments : List Word) (limit : Nat) : Local → Prop where
  /-- The first host calls the program. -/
  | first {host : Host} {directory : Directory} {keyboardOpen : Bool}
      (partakes : Partakes program limit host directory)
      (fresh : host.config.fromSnapshot = none) (calls : host.config.arguments = arguments) :
      Chain program arguments limit (start host directory keyboardOpen)
  /-- Another host starts from the file that the one before it has left. -/
  | later {before : Local} {path source : String} {host : Host} {directory : Directory}
      {keyboardOpen : Bool} (chain : Chain program arguments limit before)
      (left : before.result? = some (.ok (.exported path)))
      (partakes : Partakes program limit host directory)
      (starts : host.config.fromSnapshot = some source)
      (carried : directory.read source = before.directory.read path) :
      Chain program arguments limit (start host directory keyboardOpen)
  /-- The host goes on. No key is pressed. -/
  | step {host next : Local} {event : Event} (chain : Chain program arguments limit host)
      (keyless : ∀ action, event ≠ .key action) (stepped : host.step event = some next) :
      Chain program arguments limit next

/-- The artifact of every machine on the course of the call has a length of 64 bits, as all bytes in
memory have. -/
def Sealable (program : Program) (arguments : List Word) (limit : Nat) : Prop :=
  ∀ machine, (program.engine limit).Passes (program.call limit arguments) machine →
    (Envelope.ofSnapshot program.name machine.record).toBytes.length < UInt64.size

/-- Artifacts are short enough if the machines on the course are small. -/
theorem Sealable.of_small {most depth : Nat}
    (small : ∀ machine, (program.engine limit).Passes (program.call limit arguments) machine →
      machine.record.frames.length ≤ depth ∧
        ∀ frame ∈ machine.record.frames, frame.locals.length + frame.operands.length ≤ most)
    (short : 2 * (Bytes.ofText program.name).length + 2 * ((11 * most + 13) * depth + 7) + 43 <
      UInt64.size) : Sealable program arguments limit := by
  intro machine passes
  obtain ⟨shallow, each⟩ := small machine passes
  have encode_le := Snapshot.length_encode_le each
  have depth_le : (11 * most + 13) * machine.record.frames.length ≤ (11 * most + 13) * depth :=
    Nat.mul_le_mul_left _ shallow
  have artifact_le := Envelope.length_toBytes_ofSnapshot_le program.name machine.record
  omega

/-- A host carries on the call of the program, for which it has found the files as it needs them. -/
structure Carries (program : Program) (arguments : List Word) (limit : Nat) (host : Local) :
    Prop where
  program_eq : host.config.program = program
  limit_eq : host.config.maxCallDepth = limit
  unattended : host.config.policy.isManual = false
  orderly : host.Orderly
  follows : ∃ directory passed, SnapshotFile.Stores directory host.config.exportPath ∧
    host.Follows (program.engine limit) (program.call limit arguments) directory passed

namespace Carries

theorem suits (carries : host.Carries program arguments limit) :
    host.config.engine = program.engine limit := by
  rw [Config.engine, carries.program_eq, carries.limit_eq]
  rfl

/-- A run that has ended reports the outcome of the call, or it has left an artifact that says at
which machine it stands. -/
theorem reports_or_leaves (carries : host.Carries program arguments limit)
    (sealable : Sealable program arguments limit) (ended : host.result?.isSome = true) :
    (∃ outcome, host.Reports outcome ∧
      (program.engine limit).Ends (program.call limit arguments) outcome) ∨
    host.config.exportOnly = true ∧
      host.result? = some (.ok (.exported host.config.exportPath)) ∧
      ∃ stored machine count, SnapshotFile.read host.directory host.config.exportPath = .ok stored ∧
        stored.program = program.name ∧ stored.snapshot = machine.record ∧
        (program.engine limit).StandsAt (program.call limit arguments) count machine := by
  obtain ⟨directory, passed, stores, follows⟩ := carries.follows
  rcases follows.reports_or_leaves ended with ⟨outcome, reports, ends⟩ |
    ⟨leaves, machine, written, stands, writes, result⟩
  · exact .inl ⟨outcome, reports, ends.ends⟩
  · obtain ⟨size, after, possible⟩ := stores.write host.config.program.name machine.record
    rw [possible] at writes
    cases writes
    rw [carries.program_eq] at possible
    have readable := SnapshotFile.read_of_write machine.wellFormed_record
      (sealable machine stands.passes) possible
    exact .inr ⟨leaves, result, _, machine, passed, readable, rfl, rfl, stands⟩

theorem step (carries : host.Carries program arguments limit)
    (resumable : (program.engine limit).Resumable (program.call limit arguments))
    (keyless : ∀ action, event ≠ .key action) (moves : host.Moves event next) :
    next.Carries program arguments limit := by
  obtain ⟨directory, passed, stores, follows⟩ := carries.follows
  have attends : host.Attends event := ⟨keyless .abort, by simp [carries.unattended]⟩
  have same := moves.config_eq
  have onward := moves.follows attends carries.orderly carries.suits resumable follows
  exact ⟨same ▸ carries.program_eq, same ▸ carries.limit_eq, same ▸ carries.unattended,
    moves.orderly carries.orderly, directory, _, same ▸ stores, onward⟩

end Carries

/-- A host that starts with a call begins the computation. -/
theorem Partakes.carries_first {host : Host} {directory : Directory}
    (partakes : Partakes program limit host directory) (fresh : host.config.fromSnapshot = none)
    (keyboardOpen : Bool) :
    (start host directory keyboardOpen).Carries program host.config.arguments limit := by
  have gate : (start host directory keyboardOpen).stage = .gate none :=
    stage_start (by rw [Host.loadInitial, fresh]) keyboardOpen
  have call : program.call limit host.config.arguments =
      (program.engine limit).call host.config.program.entry host.config.arguments := by
    rw [Program.call, partakes.program_eq]
  exact ⟨partakes.program_eq, partakes.limit_eq, partakes.unattended,
    .start partakes.idle directory keyboardOpen, directory, 0, partakes.stores,
    .fresh gate rfl rfl call⟩

/-- A host that starts from the artifact of a machine on the course goes on there. -/
theorem Partakes.carries_later {host : Host} {directory : Directory}
    (partakes : Partakes program limit host directory) {source : String} {stored : StoredSnapshot}
    {machine : Machine} {count : Nat} (starts : host.config.fromSnapshot = some source)
    (readable : SnapshotFile.read directory source = .ok stored)
    (bears : stored.program = program.name) (holds : stored.snapshot = machine.record)
    (stands : (program.engine limit).StandsAt (program.call limit arguments) count machine)
    (keyboardOpen : Bool) :
    (start host directory keyboardOpen).Carries program arguments limit := by
  rw [← partakes.program_eq] at bears
  have valid : stored.snapshot.valid = true := by
    rw [holds]
    rfl
  have loaded := Host.loadInitial_of_read starts readable bears valid
  rw [holds] at loaded
  exact ⟨partakes.program_eq, partakes.limit_eq, partakes.unattended,
    .start partakes.idle directory keyboardOpen, directory, count, partakes.stores,
    .paused (stage_start loaded keyboardOpen) rfl stands⟩

theorem Reports.not_exported {outcome : Outcome Fault} (reports : host.Reports outcome)
    (path : String) : host.result? ≠ some (.ok (.exported path)) := by
  cases outcome with
  | completed results => simp [reports.1]
  | paused snapshot => cases reports
  | faulted fault =>
      rw [show host.result? = _ from reports]
      simp

/-- Along a chain every host carries on the same call. -/
theorem Chain.carries (chain : Chain program arguments limit host)
    (resumable : (program.engine limit).Resumable (program.call limit arguments))
    (sealable : Sealable program arguments limit) : host.Carries program arguments limit := by
  induction chain with
  | first partakes fresh calls => exact calls ▸ partakes.carries_first fresh _
  | later _ left partakes starts carried ih =>
      rcases ih.reports_or_leaves sealable (by rw [left]; rfl) with ⟨outcome, reports, -⟩ |
        ⟨-, result, stored, machine, count, readable, bears, holds, stands⟩
      · exact absurd left (reports.not_exported _)
      · rw [left] at result
        cases result
        obtain ⟨bytes, read, opened⟩ := SnapshotFile.read_eq_ok_iff.mp readable
        have found := SnapshotFile.read_eq_ok_iff.mpr ⟨bytes, carried.trans read, opened⟩
        exact partakes.carries_later starts found bears holds stands _
  | step _ keyless stepped ih => exact ih.step resumable keyless (moves_of_step stepped)

theorem Chain.run (chain : Chain program arguments limit host) {events : List Event}
    (keyless : ∀ event ∈ events, ∀ action, event ≠ .key action)
    (course : host.run events = some next) : Chain program arguments limit next := by
  induction events generalizing host with
  | nil =>
      cases course
      exact chain
  | cons event rest ih =>
      obtain ⟨between, stepped, course⟩ := Option.bind_eq_some_iff.mp course
      obtain ⟨first, others⟩ := List.forall_mem_cons.mp keyless
      exact ih (chain.step first stepped) others course

theorem Chain.work (chain : Chain program arguments limit host) (fuel : Nat) :
    Chain program arguments limit (host.work fuel) := by
  induction fuel generalizing host with
  | zero => exact chain
  | succ fuel ih =>
      rw [Local.work]
      cases proceeded : host.proceed with
      | none => exact chain
      | some next =>
          have stepped : host.step .proceed = some next := proceeded
          exact ih (chain.step (by simp) stepped)

/-- A host that is to leave its computation in a file does so when it pauses. -/
theorem Carries.exports_of_pauses (carries : host.Carries program arguments limit) {guard : Nat}
    {invocation : Invocation} (running : host.stage = .running guard invocation)
    (pauses : host.pauses invocation = true) (leaves : host.config.exportOnly = true) :
    ∃ next, host.step .proceed = some next ∧
      next.result? = some (.ok (.exported host.config.exportPath)) := by
  obtain ⟨next, stepped⟩ : ∃ next, host.step .proceed = some next :=
    ⟨host.turn guard invocation, by rw [Local.step, proceed, running]⟩
  refine ⟨next, stepped, ?_⟩
  cases moves_of_step stepped with
  | launches gate => simp [running] at gate
  | goes same quiet =>
      rw [running] at same
      cases same
      rw [pauses] at quiet
      contradiction
  | aborts cause => simp [carries.unattended] at cause
  | settles same ended settled =>
      rw [running] at same
      cases same
      rcases ended with ⟨-, rfl⟩ | ⟨quiet, -⟩
      · cases settled with
        | pauses _ goesOn =>
            rw [leaves] at goesOn
            contradiction
        | exports => rfl
        | unwritten _ _ refused =>
            obtain ⟨directory, passed, stores, follows⟩ := carries.follows
            have untouched := follows.untouched (by rw [result?, running])
            obtain ⟨size, after, written⟩ := stores.write host.config.program.name
              invocation.machine.record
            rw [← untouched, refused] at written
            cases written
        | misfits inactive =>
            rw [carries.orderly.running _ _ running] at inactive
            contradiction
      · rw [pauses] at quiet
        contradiction

/-- What is true of the last host of a chain, at any time of its run. -/
structure Unbroken (program : Program) (arguments : List Word) (limit : Nat) (host : Local) :
    Prop where
  /-- A host that is to leave its computation in a file does so when it pauses. -/
  pauses : ∀ guard invocation, host.stage = .running guard invocation →
    host.pauses invocation = true → host.config.exportOnly = true →
    ∃ next, host.step .proceed = some next ∧
      next.result? = some (.ok (.exported host.config.exportPath))
  /-- The artifact in the file can be read, it is admitted for the program and for no other, and it
  holds the record of a machine on the course of the uninterrupted call. -/
  exports : ∀ path, host.result? = some (.ok (.exported path)) →
    path = host.config.exportPath ∧
    ∃ stored machine, SnapshotFile.read host.directory path = .ok stored ∧
      (∀ name, stored.ensureProgram name = .ok () ↔ name = program.name) ∧
      stored.snapshot = machine.record ∧
      (program.engine limit).Passes (program.call limit arguments) machine
  /-- A host that has not left its computation in a file reports the outcome of the uninterrupted
  call. -/
  answers : host.result?.isSome = true →
    (∀ path, host.result? ≠ some (.ok (.exported path))) →
    ∃ outcome, host.Reports outcome ∧
      (program.engine limit).Ends (program.call limit arguments) outcome
  /-- Left to itself, the host comes to its end if the uninterrupted call does. -/
  finishes : ∀ outcome, (program.engine limit).Ends (program.call limit arguments) outcome →
    ∃ fuel, (host.work fuel).Reports outcome ∨ host.config.exportOnly = true ∧
      (host.work fuel).result? = some (.ok (.exported host.config.exportPath))

/-- A chain of hosts, each of which starts where the one before it has left the computation, carries
on the call of the program to the end, if the limit allows one activation. -/
theorem unbroken_of_limit (addressable : program.module.Addressable) (limit_pos : 1 ≤ limit)
    (sealable : Sealable program arguments limit) (chain : Chain program arguments limit host) :
    host.Unbroken program arguments limit := by
  have resumable : (program.engine limit).Resumable (program.call limit arguments) :=
    Engine.resumable_call addressable limit_pos program.entry arguments
  have carries := chain.carries resumable sealable
  constructor
  case pauses => exact fun _ _ => carries.exports_of_pauses
  case exports =>
    intro path result
    rcases carries.reports_or_leaves sealable (by rw [result]; rfl) with ⟨_, reports, -⟩ |
      ⟨-, left, stored, machine, count, readable, bears, holds, stands⟩
    · exact absurd result (reports.not_exported path)
    · rw [result] at left
      cases left
      refine ⟨rfl, stored, machine, readable, fun name => ?_, holds, stands.passes⟩
      rw [StoredSnapshot.ensureProgram_eq_ok_iff, bears]
  case answers =>
    intro ended notLeft
    rcases carries.reports_or_leaves sealable ended with reports | ⟨-, left, -⟩
    · exact reports
    · exact absurd left (notLeft _)
  case finishes =>
    intro outcome ends
    obtain ⟨directory, passed, -, follows⟩ := carries.follows
    obtain ⟨fuel, _, -, config, ended⟩ :=
      follows.comesToEnd carries.orderly carries.suits resumable carries.unattended ends
    rcases ((chain.work fuel).carries resumable sealable).reports_or_leaves sealable ended with
      ⟨other, reports, same⟩ | ⟨leaves, left, -⟩
    · rw [same.unique ends] at reports
      exact ⟨fuel, .inl reports⟩
    · rw [config] at leaves left
      exact ⟨fuel, .inr ⟨leaves, left⟩⟩

theorem endsAfter_callFib (limit : Nat) :
    (Program.fib.engine limit).EndsAfter (Program.fib.call limit [1]) 6 (.completed [1]) :=
  .executed ⟨_, rfl, rfl⟩ rfl

theorem sealable_callFib (limit : Nat) : Sealable Program.fib [1] limit := by
  have small : ∀ machine, (Program.fib.engine limit).Passes (Program.fib.call limit [1]) machine →
      machine.record.frames.length ≤ 1 ∧
        ∀ frame ∈ machine.record.frames, frame.locals.length + frame.operands.length ≤ 3 := by
    intro machine passes
    obtain ⟨count, stands⟩ := Engine.passes_iff.mp passes
    have lt := stands.lt_of_endsAfter (endsAfter_callFib limit)
    obtain ⟨invocation, called, passed⟩ := stands
    cases called
    have each : count = 0 ∨ count = 1 ∨ count = 2 ∨ count = 3 ∨ count = 4 ∨ count = 5 := by omega
    rcases each with rfl | rfl | rfl | rfl | rfl | rfl <;> cases passed <;>
      exact ⟨Nat.le_refl 1, List.forall_mem_singleton.mpr (Nat.le_of_ble_eq_true rfl)⟩
  exact Sealable.of_small small (by decide)

/-- A host that has left the first machine of `fib` in a file, where another one can be left. -/
theorem exported_callFib {limit : Nat} (small : limit = 0 ∨ limit = 1) :
    ∃ left size, Chain .fib [1] limit left ∧
      left.result? = some (.ok (.exported Config.defaultExportPath)) ∧
      SnapshotFile.Stores left.directory Config.defaultExportPath ∧
      SnapshotFile.write {} Config.defaultExportPath Program.fib.name
        (Machine.record ⟨0, ⟨0, 0, [1], []⟩, []⟩) = (.ok size, left.directory) := by
  have stores : SnapshotFile.Stores {} Config.defaultExportPath := fun _ => ⟨_, rfl⟩
  have origin : Chain .fib [1] limit (start (steppingFib limit none true) {} false) :=
    .first ⟨rfl, rfl, rfl, rfl, stores⟩ rfl rfl
  have course : ∃ left size,
      (start (steppingFib limit none true) {} false).run [.proceed, .proceed] = some left ∧
      left.result? = some (.ok (.exported Config.defaultExportPath)) ∧
      SnapshotFile.Stores left.directory Config.defaultExportPath ∧
      SnapshotFile.write {} Config.defaultExportPath Program.fib.name
        (Machine.record ⟨0, ⟨0, 0, [1], []⟩, []⟩) = (.ok size, left.directory) := by
    rcases small with rfl | rfl <;> exact ⟨_, _, rfl, rfl, fun _ => ⟨_, rfl⟩, rfl⟩
  obtain ⟨left, size, ran, result, again, written⟩ := course
  exact ⟨left, size, origin.run (by simp) ran, result, again, written⟩

/-- A second host goes on from the file of the first and returns what a single process returns. -/
theorem unbroken_of_limit_fib :
    ∃ left second fuel, Chain .fib [1] 1 left ∧
      left.result? = some (.ok (.exported Config.defaultExportPath)) ∧
      Chain .fib [1] 1 second ∧ (second.work fuel).Reports (.completed [1]) := by
  obtain ⟨left, -, chain, result, stores, -⟩ := exported_callFib (.inr rfl)
  have second : Chain .fib [1] 1
      (start (steppingFib 1 (some Config.defaultExportPath)) left.directory false) :=
    .later chain result ⟨rfl, rfl, rfl, rfl, stores⟩ rfl rfl
  obtain ⟨fuel, reports | ⟨leaves, -⟩⟩ :=
    (unbroken_of_limit Program.addressable_fib (Nat.le_refl 1) (sealable_callFib 1)
      second).finishes _ (endsAfter_callFib 1).ends
  · exact ⟨left, _, fuel, chain, result, second, reports⟩
  · cases leaves

/-- With no room for an activation a second host refuses what the first has left, although a single
process returns. -/
theorem chain_without_room :
    ∃ left second, Chain .fib [1] 0 left ∧
      left.result? = some (.ok (.exported Config.defaultExportPath)) ∧ Chain .fib [1] 0 second ∧
      second.result? = some (.error (Fault.unrestorable (.callDepthExceeded 0)).toFailure) ∧
      (Program.fib.engine 0).Ends (Program.fib.call 0 [1]) (.completed [1]) := by
  obtain ⟨left, size, chain, result, stores, written⟩ := exported_callFib (.inl rfl)
  have origin : Chain .fib [1] 0
      (start (steppingFib 0 (some Config.defaultExportPath)) left.directory false) :=
    .later chain result ⟨rfl, rfl, rfl, rfl, stores⟩ rfl rfl
  have short := sealable_callFib 0 ⟨0, ⟨0, 0, [1], []⟩, []⟩ ⟨_, 0, rfl, rfl⟩
  have readable := SnapshotFile.read_of_write (Machine.wellFormed_record _) short written
  have loaded : Host.loadInitial (steppingFib 0 (some Config.defaultExportPath)).config
      left.directory = .ok (some (Machine.record ⟨0, ⟨0, 0, [1], []⟩, []⟩)) :=
    Host.loadInitial_of_read rfl readable rfl rfl
  have refused : ∃ second,
      (start (steppingFib 0 (some Config.defaultExportPath)) left.directory false).step .proceed =
        some second ∧
      second.result? = some (.error (Fault.unrestorable (.callDepthExceeded 0)).toFailure) := by
    simp only [start, loaded]
    exact ⟨_, rfl, rfl⟩
  obtain ⟨second, stepped, fault⟩ := refused
  exact ⟨left, second, chain, result, origin.step (by simp) stepped, fault,
    (endsAfter_callFib 0).ends⟩

end Local

end Ferry
