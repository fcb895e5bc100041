import Ferry.Proofs.Remote.Acceptance

/-!
# The decision on a hand-over

A host takes over a computation that belongs to its program and comes with no malformed snapshot,
provided that no run is in flight, that the own computation has not ended, and that an edge leads
from the phase of the session to that of the run. Then one run is added, and whenever it begins its
invocation, it begins the one that was asked for. Otherwise nothing at all has changed.
-/

namespace Ferry

namespace Peer.ExecuteRequest

/-- The phase of the run that a request asks for. -/
def phase (request : ExecuteRequest) : Phase :=
  match request.snapshot with
  | none => .running
  | some snapshot => if snapshot.valid then .resuming else .running

/-- The invocation that a request asks for: the snapshot that it carries is resumed, and without a
valid one the program is called afresh. -/
def invocation (request : ExecuteRequest) (config : Config) : Except Fault Invocation :=
  match request.snapshot with
  | none => config.engine.call config.program.entry config.arguments
  | some snapshot =>
      if snapshot.valid then config.engine.resume snapshot
      else config.engine.call config.program.entry config.arguments

theorem phaseOnReceipt_resumable? (request : ExecuteRequest) :
    Session.phaseOnReceipt request.resumable? = request.phase := by
  rcases request with ⟨session, program, _ | ⟨valid, frames, entry⟩⟩
  · rfl
  · cases valid <;> rfl

/-- What the host filters out of a request before it adds the run, the run filters once more when it
begins, which changes nothing. -/
theorem invoke_resumable? (request : ExecuteRequest) (config : Config) :
    Host.invoke config request.resumable? = request.invocation config := by
  rcases request with ⟨session, program, _ | ⟨valid, frames, entry⟩⟩
  · rfl
  · cases valid <;> rfl

end Peer.ExecuteRequest

namespace Remote

variable {host next later : Remote} {event : Event} {call : Option Call}

/-- What makes a host take over a computation. -/
structure Admits (host : Remote) (request : Peer.ExecuteRequest) : Prop where
  program : request.program = host.config.program.name
  sound : request.check = .ok ()
  inactive : host.session.phase.isActive = false
  unended : host.session.phase.isTerminal = false
  edge : host.session.phase.mayBecome request.phase = true

/-- The edge alone excludes the phases in which a computation is active or has ended. -/
theorem takes_iff_admits {request : Peer.ExecuteRequest} : host.Takes request ↔ host.Admits request := by
  constructor
  · intro takes
    obtain ⟨inactive, unended⟩ := Phase.resting_of_mayBecome takes.edge
    have edge := takes.edge
    rw [request.phaseOnReceipt_resumable?] at edge
    exact ⟨takes.program, takes.sound, inactive, unended, edge⟩
  · intro admits
    refine ⟨admits.program, admits.sound, ?_⟩
    rw [request.phaseOnReceipt_resumable?]
    exact admits.edge

/-- A run that has not begun is as it was after any step but the one that begins it. -/
theorem stage?_of_spawned (numbered : host.Numbered) {run : Nat} {snapshot : Option Snapshot}
    (spawned : host.stage? run = some (.spawned snapshot))
    (stepped : host.step event = some (next, call)) (uninvoked : event ≠ .invoke run) :
    next.stage? run = some (.spawned snapshot) := by
  apply (moves_of_step stepped).stage?_of_other numbered spawned
  intro own
  cases event with
  | invoke other =>
      cases own
      exact uninvoked rfl
  | turn other | settle other | answer other =>
      cases own
      simp [step, spawned, answerRun] at stepped
  | _ => cases own

/-- A run that has not begun stays as it is, however long it takes until it begins. -/
theorem spawned_of_follow (numbered : host.Numbered) {run : Nat} {snapshot : Option Snapshot}
    (spawned : host.stage? run = some (.spawned snapshot)) {events : List Event}
    (followed : host.follow events = some later) (uninvoked : .invoke run ∉ events) :
    later.config = host.config ∧ later.stage? run = some (.spawned snapshot) := by
  induction events generalizing host with
  | nil =>
      cases followed
      exact ⟨rfl, spawned⟩
  | cons event rest ih =>
      obtain ⟨⟨next, call⟩, stepped, followed⟩ := Option.bind_eq_some_iff.mp followed
      rw [List.mem_cons, not_or] at uninvoked
      have moves := moves_of_step stepped
      have still := stage?_of_spawned numbered spawned stepped (Ne.symm uninvoked.1)
      rw [← moves.config_eq]
      exact ih (moves.numbered numbered) still followed uninvoked.2

/-- A run is able to begin, and begins a given invocation; a fault of that is its outcome. -/
def BeginsWith (host : Remote) (run : Nat) (invocation : Except Fault Invocation) : Prop :=
  ∃ begun, host.step (.invoke run) = some (begun, none) ∧
    match invocation with
    | .ok invocation => ∃ guard, begun.stage? run = some (.invoking guard invocation)
    | .error fault => begun.stage? run = some (.returned (.faulted fault))

theorem begins_of_spawned {run : Nat} {snapshot : Option Snapshot}
    (spawned : host.stage? run = some (.spawned snapshot)) :
    host.BeginsWith run (Host.invoke host.config snapshot) := by
  have stepped : host.step (.invoke run) = some (host.beginInvocation run snapshot, none) := by
    simp only [step, spawned]
  have moved : ∀ (base : Remote) stage, base.runs = host.runs →
      (base.setStage run stage).stage? run = some stage := by
    intro base stage runs
    rw [stage?_setStage_of runs spawned]
    exact if_pos rfl
  refine ⟨_, stepped, ?_⟩
  simp only [beginInvocation]
  cases Host.invoke host.config snapshot with
  | ok invocation => exact ⟨_, moved _ _ rfl⟩
  | error fault => exact moved _ _ rfl

/-- A run is going to begin a given invocation: whatever happens to the host meanwhile, this is what
the run begins. -/
def Intends (host : Remote) (run : Nat) (invocation : Except Fault Invocation) : Prop :=
  ∀ events later, host.follow events = some later → .invoke run ∉ events →
    later.BeginsWith run invocation

theorem intends_spawn (numbered : host.Numbered) (snapshot : Option Snapshot) :
    (host.spawn snapshot).Intends host.spawned (Host.invoke host.config snapshot) := by
  have spawned : (host.spawn snapshot).stage? host.spawned = some (.spawned snapshot) := by
    rw [stage?_spawn numbered, if_pos rfl]
  intro events later followed uninvoked
  obtain ⟨config, still⟩ := spawned_of_follow (numbered.spawn snapshot) spawned followed uninvoked
  have begins := begins_of_spawned still
  rw [config] at begins
  exact begins

/-- What becomes of a request: the answer and the host after it. -/
structure Decision (host : Remote) (request : Peer.ExecuteRequest)
    (answer : Except Failure Peer.ExecuteReply) (after : Remote) : Prop where
  accepts_iff : answer = .ok ⟨true⟩ ↔ host.Admits request
  /-- The session adopts the id and the phase, and one run is added. -/
  adopts : host.Admits request → after = { host with
    session := { host.session with phase := request.phase, id := request.session, received := none }
    runs := host.runs ++ [⟨host.spawned, .spawned request.resumable?⟩]
    spawned := host.spawned + 1 }
  /-- The run begins what was asked for. -/
  intends : host.Admits request → host.Numbered →
    after.Intends host.spawned (request.invocation host.config)
  /-- Otherwise nothing has changed, and the answer says so, or says why. -/
  declines : ¬ host.Admits request → host.Declined request answer ∧ after = host

/-- Every request is decided so, in whatever state the session is. -/
theorem takeOver_decides (host : Remote) (request : Peer.ExecuteRequest) :
    host.Decision request (host.takeOver request).1 (host.takeOver request).2 := by
  have adopted : host.Admits request → (host.takeOver request).2 = ({ host with
      session := { host.session with
        phase := request.phase, id := request.session, received := none } } : Remote).spawn
      request.resumable? := by
    intro admits
    rw [takeOver_of_takes (takes_iff_admits.mpr admits), request.phaseOnReceipt_resumable?]
  constructor
  · exact takeOver_accepts_iff.trans takes_iff_admits
  · exact adopted
  · intro admits numbered
    rw [adopted admits, ← request.invoke_resumable?]
    apply intends_spawn
    exact numbered.congr rfl rfl
  · intro refused
    exact takeOver_declined fun takes => refused (takes_iff_admits.mp takes)

/-- The id of a computation that comes from a peer. -/
def returningId : SessionId := ⟨List.replicate 16 3, rfl⟩

/-- Its snapshot: one instruction of the program was run. -/
def returning : Snapshot := ⟨true, [⟨1, 0, [9], [9]⟩], 0⟩

/-- What comes back to a host that has handed its computation over is resumed under the id that it
comes with; a malformed snapshot leaves no trace. -/
theorem takeOver_decides_stepping :
    ∃ origin host invocation, ofConfig? steppingFib steppingId {} = .ok origin ∧
      origin.follow [.begin, .invoke 0, .turn 0, .settle 0] = some host ∧
      host.Admits (.resume returningId "fib" returning) ∧
      steppingFib.engine.resume returning = .ok invocation ∧
      (host.takeOver (.resume returningId "fib" returning)).2.session.id = returningId ∧
      (host.takeOver (.resume returningId "fib" returning)).2.Intends 1 (.ok invocation) ∧
      (host.takeOver (.resume returningId "fib" ⟨true, [], 0⟩)).2 = host := by
  have course : ∃ origin host invocation, ofConfig? steppingFib steppingId {} = .ok origin ∧
      origin.follow [.begin, .invoke 0, .turn 0, .settle 0] = some host ∧
      steppingFib.engine.resume returning = .ok invocation ∧ host.spawned = 1 ∧
      host.config = steppingFib ∧ host.session.phase = .transmitted :=
    ⟨_, _, _, rfl, rfl, rfl, rfl, rfl, rfl⟩
  rcases course with ⟨origin, host, invocation, made, followed, resumed, count, config, phase⟩
  have numbered : host.Numbered := ((Orderly.ofConfig? made).reaches ⟨_, followed⟩).numbered
  have admits : host.Admits (.resume returningId "fib" returning) := by
    constructor
    · rw [config]
      rfl
    · rfl
    all_goals
      rw [phase]
      rfl
  have malformed : ¬ host.Admits (.resume returningId "fib" ⟨true, [], 0⟩) := by
    intro admits
    cases admits.sound
  have taken := takeOver_decides host (.resume returningId "fib" returning)
  have intends := taken.intends admits numbered
  rw [config, count] at intends
  have asked : (Peer.ExecuteRequest.resume returningId "fib" returning).invocation steppingFib =
      .ok invocation := resumed
  rw [asked] at intends
  refine ⟨origin, host, invocation, made, followed, admits, resumed, ?_, intends, ?_⟩
  · rw [taken.adopts admits]
    rfl
  · exact ((takeOver_decides host (.resume returningId "fib" ⟨true, [], 0⟩)).declines malformed).2

end Remote

end Ferry
