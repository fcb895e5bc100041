import Ferry.Proofs.Artifact.Files
import Ferry.Proofs.Artifact.Format
import Ferry.Proofs.Peer.Oversize
import Ferry.Proofs.Remote.Acceptance
import Ferry.Proofs.Wire.SelfDelimiting

/-!
# Two channels for a snapshot

A snapshot comes to a host as an artifact in a file, or in a message of a peer. The two channels judge
it alike: it comes through exactly if it is well formed, and then as it was. Only a message that is
too large for the server of the peer does not come through, whatever is in it; an artifact has any
size. A host in which nothing has begun also does the same with the snapshot, whichever way it came:
it goes on with a valid one, and calls its program for one that is not valid.
-/

namespace Ferry

section Judging

variable {program : String} {snapshot : Snapshot}

namespace Peer

/-- A server lets a request through as a hand-over if it is the service that answers, whatever the
service is. -/
def LetsThrough (request : Request) (message : ExecuteRequest) : Prop :=
  ∀ {σ : Type} (service : Service σ) (state : σ),
    service.answer state request =
      (respond (service.execute state message).1, (service.execute state message).2)

/-- A service that notes whether it was called. -/
def Service.noting : Service Bool where
  execute _ _ := (.ok ⟨true⟩, true)
  finish _ _ := (.ok ⟨⟩, true)

/-- Of the hand-overs that are not too large, a server lets those through whose snapshot is well
formed. -/
theorem letsThrough_toRequest_iff {request : ExecuteRequest}
    (small : (Wire.write request).length ≤ maxMessage) :
    LetsThrough request.toRequest request ↔ request.check = .ok () := by
  constructor
  · intro lets
    cases sound : request.check with
    | ok _ => rfl
    | error failure =>
        have noted := congrArg Prod.snd (lets Service.noting false)
        rw [answer_execute_of_unsound _ _ small sound] at noted
        cases noted
  · intro sound σ service state
    exact answer_execute small sound rfl

/-- A server does not let a hand-over through that is too large. -/
theorem not_letsThrough_of_large {request : ExecuteRequest}
    (large : maxMessage < (Wire.write request).length) :
    ¬ LetsThrough request.toRequest request := by
  intro lets
  have noted := congrArg Prod.snd (lets Service.noting false)
  rw [answer_execute_of_large _ _ large] at noted
  cases noted

end Peer

end Judging

namespace Host

/-- Two hosts would run the same program in the same way. -/
structure SameTask (first second : Host) : Prop where
  program : second.config.program = first.config.program
  arguments : second.config.arguments = first.config.arguments
  maxCallDepth : second.config.maxCallDepth = first.config.maxCallDepth
  controller : second.controller = first.controller

section SameTask

variable {first second : Host}

theorem SameTask.engine_eq (same : first.SameTask second) :
    second.config.engine = first.config.engine := by
  rw [Config.engine, Config.engine, same.program, same.maxCallDepth]

theorem SameTask.invoke_eq (same : first.SameTask second) (start : Option Snapshot) :
    invoke second.config start = invoke first.config start := by
  rw [invoke, invoke, same.engine_eq, same.program, same.arguments]

theorem SameTask.outcome_eq (same : first.SameTask second) (arms : Nat → Bool) (fuel : Nat)
    (start : Option Snapshot) :
    (second.executeOnce arms fuel start).map Prod.fst =
      (first.executeOnce arms fuel start).map Prod.fst := by
  simp only [executeOnce, same.engine_eq, same.controller, same.invoke_eq start]
  split <;> rfl

end SameTask

/-- Two hosts begin alike with a start that came of a snapshot: they go on with the snapshot if it is
valid and call the program if it is not, and the invocation comes to the same outcome, whenever
somebody asks for pauses. -/
structure BeginAlike (first second : Host) (snapshot : Snapshot) (start : Option Snapshot) :
    Prop where
  phase_eq : second.session.phase = first.session.phase
  resumes : snapshot.valid = true →
    invoke first.config start = first.config.engine.resume snapshot
  calls : snapshot.valid = false → invoke first.config start =
    first.config.engine.call first.config.program.entry first.config.arguments
  invoke_eq : invoke second.config start = invoke first.config start
  outcome_eq : ∀ arms fuel, (second.executeOnce arms fuel start).map Prod.fst =
    (first.executeOnce arms fuel start).map Prod.fst

/-- Hosts with the same task begin alike in the same phase. -/
theorem SameTask.beginAlike {first second : Host} (same : first.SameTask second)
    (phase_eq : second.session.phase = first.session.phase) (snapshot : Snapshot) :
    first.BeginAlike second snapshot ((some snapshot).filter (·.valid)) where
  phase_eq := phase_eq
  resumes valid := by simp [invoke, Option.filter, valid]
  calls invalid := by simp [invoke, Option.filter, invalid]
  invoke_eq := same.invoke_eq _
  outcome_eq arms fuel := same.outcome_eq arms fuel _

/-- A host that is about to start from an artifact in a file, and a remote one with the same task that
its peer has handed nothing to. -/
structure Ready (host : Host) (remote : Remote) (directory : Directory) (program : String)
    (artifact : Bytes) : Prop where
  same : host.SameTask remote.toHost
  idle : host.session.phase = .idle
  remote_idle : remote.session.phase = .idle
  program : host.config.program.name = program
  file : ∃ path, host.config.fromSnapshot = some path ∧ directory.read path = .ok artifact

section Ready

variable {host : Host} {remote : Remote} {directory : Directory} {program : String}
  {snapshot : Snapshot} {artifact : Bytes}

/-- A host that starts from a file loads what is in the artifact. -/
theorem Ready.loadInitial_eq {stored : StoredSnapshot}
    (ready : host.Ready remote directory program artifact)
    (opens : StoredSnapshot.ofBytes? artifact = .ok stored) (bears : stored.program = program) :
    loadInitial host.config directory = .ok ((some stored.snapshot).filter (·.valid)) := by
  obtain ⟨path, source, readable⟩ := ready.file
  exact loadInitial_eq_of_read source
    (SnapshotFile.read_eq_ok_iff.mpr ⟨artifact, readable, opens⟩) (bears.trans ready.program.symm)

/-- A host does not start from an artifact that is not opened. -/
theorem Ready.loadInitial_eq_error {defect : Envelope.Defect}
    (ready : host.Ready remote directory program artifact)
    (refused : StoredSnapshot.ofBytes? artifact = .error defect) :
    loadInitial host.config directory = .error defect.toFailure := by
  obtain ⟨path, source, readable⟩ := ready.file
  simp [loadInitial, source, SnapshotFile.read, readable, refused, bind, Except.bind]

/-- Nothing stands in the way of a run where nothing has begun. -/
theorem enterRun_of_idle (idle : host.session.phase = .idle) (start : Option Snapshot) :
    host.enterRun start = .ok { host with session := { host.session with
      phase := Session.phaseOnReceipt start } } := by
  have edge : host.session.phase.mayBecome (Session.phaseOnReceipt start) = true :=
    (Phase.mayBecome_phaseOnReceipt_iff _ _).mpr (.inl idle)
  rw [enterRun, Session.moveTo_eq_ok_iff.mpr ⟨edge, rfl⟩]
  rfl

/-- A remote host in which nothing has begun takes over a computation of its program if the snapshot
is well formed. -/
theorem Ready.takes (ready : host.Ready remote directory program artifact) (id : SessionId)
    (sound : snapshot.check = .ok ()) : remote.Takes (.resume id program snapshot) where
  program := by
    rw [ready.same.program]
    exact ready.program.symm
  sound := sound
  edge := (Phase.mayBecome_phaseOnReceipt_iff _ _).mpr (.inl ready.remote_idle)

theorem Ready.takeOver_of_unsound {failure : Failure}
    (ready : host.Ready remote directory program artifact) (id : SessionId)
    (unsound : snapshot.check = .error failure) :
    remote.takeOver (.resume id program snapshot) = (.error failure, remote) := by
  have same_program : ¬ (Peer.ExecuteRequest.resume id program snapshot).program ≠
      remote.config.program.name := by
    rw [ready.same.program, ready.program]
    exact not_not_intro rfl
  have refused : (Peer.ExecuteRequest.resume id program snapshot).check = .error failure := unsound
  rw [Remote.takeOver, if_neg same_program, refused]

end Ready

end Host

/-- The artifact of a snapshot in a file and a message with the snapshot are treated alike. -/
structure ChannelsAgree (id : SessionId) (program : String) (snapshot : Snapshot) : Prop where
  /-- The artifact is opened exactly if the snapshot is well formed. -/
  opens : (∃ stored, StoredSnapshot.ofBytes? (Envelope.ofSnapshot program snapshot).toBytes =
    .ok stored) ↔ snapshot.check = .ok ()
  /-- It gives what was sealed. -/
  opened : ∀ stored, StoredSnapshot.ofBytes? (Envelope.ofSnapshot program snapshot).toBytes =
    .ok stored → stored.program = program ∧ stored.snapshot = snapshot
  /-- A server lets the message through, as it was sent, exactly if the snapshot is well formed. The
  message must only have a size that the server takes. -/
  reaches : (Wire.write (Peer.ExecuteRequest.resume id program snapshot)).length ≤
    Peer.maxMessage →
      (Peer.LetsThrough (Peer.ExecuteRequest.resume id program snapshot).toRequest
        (.resume id program snapshot) ↔ snapshot.check = .ok ())
  /-- A larger message does not come to the service, whatever the snapshot is. -/
  overflows : Peer.maxMessage <
    (Wire.write (Peer.ExecuteRequest.resume id program snapshot)).length →
      ∀ {σ : Type} (service : Peer.Service σ) (state : σ),
        service.answer state (Peer.ExecuteRequest.resume id program snapshot).toRequest =
          (Peer.tooLarge, state)
  /-- A host that starts from the file and one that takes over from the peer begin alike. -/
  starts : ∀ host remote directory, snapshot.check = .ok () →
    Host.Ready host remote directory program (Envelope.ofSnapshot program snapshot).toBytes →
    ∃ start entered taken, Host.loadInitial host.config directory = .ok start ∧
      host.enterRun start = .ok entered ∧
      remote.takeOver (.resume id program snapshot) = (.ok ⟨true⟩, taken) ∧
      taken.runs = remote.runs ++ [⟨remote.spawned, .spawned start⟩] ∧
      entered.BeginAlike taken.toHost snapshot start
  /-- Neither of them begins anything with a snapshot that is not well formed. -/
  refuses : ∀ host remote directory failure, snapshot.check = .error failure →
    Host.Ready host remote directory program (Envelope.ofSnapshot program snapshot).toBytes →
    (∃ reason, Host.loadInitial host.config directory = .error (.deserialization reason)) ∧
      remote.takeOver (.resume id program snapshot) = (.error failure, remote)

/-- The two channels agree on every snapshot whose message a server takes. The name of the program
and the bytes of the snapshot have a length of 64 bits, as all sequences in memory have. -/
theorem channels_agree (id : SessionId) {program : String} {snapshot : Snapshot}
    (countable : (Envelope.ofSnapshot program snapshot).Countable) :
    ChannelsAgree id program snapshot := by
  constructor
  case opens =>
    simp only [StoredSnapshot.ofBytes?_ofSnapshot_eq_ok_iff countable, exists_and_left,
      exists_eq, and_true]
  case opened =>
    intro stored opens
    obtain ⟨-, rfl⟩ := (StoredSnapshot.ofBytes?_ofSnapshot_eq_ok_iff countable).mp opens
    exact ⟨rfl, rfl⟩
  case reaches => exact Peer.letsThrough_toRequest_iff
  case overflows =>
    intro large σ service state
    exact Peer.answer_execute_of_large service state large
  case starts =>
    intro host remote directory sound ready
    have opens := (StoredSnapshot.ofBytes?_ofSnapshot_eq_ok_iff countable).mpr ⟨sound, rfl⟩
    refine ⟨_, _, _, ready.loadInitial_eq opens rfl, Host.enterRun_of_idle ready.idle _,
      Remote.takeOver_of_takes (ready.takes id sound), rfl, ?_⟩
    -- The task does not depend on the sessions, which are all that has changed in the two hosts.
    have same : Host.SameTask host remote.toHost := ready.same
    apply Host.SameTask.beginAlike
    · exact ⟨same.program, same.arguments, same.maxCallDepth, same.controller⟩
    · rfl
  case refuses =>
    intro host remote directory failure unsound ready
    have refused := StoredSnapshot.ofBytes?_ofSnapshot_of_unsound countable unsound
    exact ⟨⟨_, ready.loadInitial_eq_error refused⟩, ready.takeOver_of_unsound id unsound⟩

/-- A host with an artifact in its file, and a remote one with the same task. -/
theorem Host.exists_ready_fib (artifact : Bytes) :
    ∃ host remote directory, Host.Ready host remote directory "fib" artifact := by
  have hosts : ∃ (host : Host) (remote : Remote),
      Host.ofConfig? { Remote.steppingFib with fromSnapshot := some "snapshot.bin" }
        Remote.steppingId = .ok host ∧
      Remote.ofConfig? Remote.steppingFib Remote.steppingId {} = .ok remote ∧
      host.SameTask remote.toHost ∧ host.session.phase = .idle ∧ remote.session.phase = .idle ∧
      host.config.program.name = "fib" ∧ host.config.fromSnapshot = some "snapshot.bin" :=
    ⟨_, _, rfl, rfl, ⟨rfl, rfl, rfl, rfl⟩, rfl, rfl, rfl, rfl⟩
  obtain ⟨host, remote, -, -, same, idle, remote_idle, program, source⟩ := hosts
  obtain ⟨directory, written⟩ : ∃ directory, Directory.write {} "snapshot.bin" artifact =
      .ok directory := ⟨_, rfl⟩
  exact ⟨host, remote, directory, same, idle, remote_idle, program, _, source,
    Directory.read_of_write written⟩

/-- A host that has the first snapshot of `fib` in a file and a remote one that is handed it begin
alike. With the mark of validity taken away, the snapshot comes through neither channel. -/
theorem channels_agree_fib :
    (∃ host remote directory start entered taken,
      Host.Ready host remote directory "fib"
        (Envelope.ofSnapshot "fib" ⟨true, [⟨0, 0, [9], []⟩], 0⟩).toBytes ∧
      Host.loadInitial host.config directory = .ok start ∧ host.enterRun start = .ok entered ∧
      remote.takeOver (.resume Remote.steppingId "fib" ⟨true, [⟨0, 0, [9], []⟩], 0⟩) =
        (.ok ⟨true⟩, taken) ∧
      entered.BeginAlike taken.toHost ⟨true, [⟨0, 0, [9], []⟩], 0⟩ start) ∧
    Peer.LetsThrough (Peer.ExecuteRequest.resume Remote.steppingId "fib"
      ⟨true, [⟨0, 0, [9], []⟩], 0⟩).toRequest
      (.resume Remote.steppingId "fib" ⟨true, [⟨0, 0, [9], []⟩], 0⟩) ∧
    (¬ ∃ stored, StoredSnapshot.ofBytes?
      (Envelope.ofSnapshot "fib" ⟨false, [⟨0, 0, [9], []⟩], 0⟩).toBytes = .ok stored) ∧
    ¬ Peer.LetsThrough (Peer.ExecuteRequest.resume Remote.steppingId "fib"
      ⟨false, [⟨0, 0, [9], []⟩], 0⟩).toRequest
      (.resume Remote.steppingId "fib" ⟨false, [⟨0, 0, [9], []⟩], 0⟩) := by
  have agree : ∀ valid, ChannelsAgree Remote.steppingId "fib" ⟨valid, [⟨0, 0, [9], []⟩], 0⟩ :=
    fun valid => channels_agree _ (Envelope.countable_of_first (by decide) valid 9)
  have small : ∀ valid, (Wire.write (Peer.ExecuteRequest.resume Remote.steppingId "fib"
      ⟨valid, [⟨0, 0, [9], []⟩], 0⟩)).length ≤ Peer.maxMessage := by
    decide +kernel
  refine ⟨?_, ?_, ?_, ?_⟩
  · obtain ⟨host, remote, directory, ready⟩ := Host.exists_ready_fib
      (Envelope.ofSnapshot "fib" ⟨true, [⟨0, 0, [9], []⟩], 0⟩).toBytes
    obtain ⟨start, entered, taken, loaded, enters, takes, -, alike⟩ :=
      (agree true).starts host remote directory rfl ready
    exact ⟨host, remote, directory, start, entered, taken, ready, loaded, enters, takes, alike⟩
  · exact ((agree true).reaches (small true)).mpr rfl
  · intro opens
    cases (agree false).opens.mp opens
  · intro lets
    cases ((agree false).reaches (small false)).mp lets

/-- The artifact of a program whose name alone has the size of the limit is opened, and the message
with the same snapshot does not come through. So the two channels do not agree on every name. -/
theorem longName_channels_differ :
    (∃ (program : String) (snapshot : Snapshot),
      program = Peer.longName Peer.maxMessage ∧ snapshot = ⟨true, [⟨0, 0, [9], []⟩], 0⟩ ∧
      snapshot.check = .ok () ∧
      (∃ stored, StoredSnapshot.ofBytes? (Envelope.ofSnapshot program snapshot).toBytes =
        .ok stored) ∧
      Peer.Service.noting.answer false
        (Peer.ExecuteRequest.resume Remote.steppingId program snapshot).toRequest =
          (Peer.tooLarge, false)) ∧
    ¬ ∀ id program snapshot, (Envelope.ofSnapshot program snapshot).Countable →
      ((∃ stored, StoredSnapshot.ofBytes? (Envelope.ofSnapshot program snapshot).toBytes =
        .ok stored) ↔
      Peer.LetsThrough (Peer.ExecuteRequest.resume id program snapshot).toRequest
        (.resume id program snapshot)) := by
  obtain ⟨program, named⟩ : ∃ program, program = Peer.longName Peer.maxMessage := ⟨_, rfl⟩
  have short : (Bytes.ofText program).length < UInt64.size := by
    rw [named, Peer.length_ofText_longName]
    decide
  have countable := Envelope.countable_of_first short true 9
  have opens := (StoredSnapshot.ofBytes?_ofSnapshot_eq_ok_iff countable).mpr ⟨rfl, rfl⟩
  have large : Peer.maxMessage < (Wire.write (Peer.ExecuteRequest.resume Remote.steppingId program
      ⟨true, [⟨0, 0, [9], []⟩], 0⟩)).length :=
    Peer.ExecuteRequest.large_of_longName named
  refine ⟨⟨program, _, named, rfl, rfl, ⟨_, opens⟩, Peer.answer_execute_of_large _ _ large⟩, ?_⟩
  intro agree
  exact Peer.not_letsThrough_of_large large ((agree _ _ _ countable).mp ⟨_, opens⟩)

end Ferry
