import Ferry.Host.Basic

/-!
# Hosts in remote mode

A remote host serves its peer and runs the computation when it is handed over, or from the start if
it is told so. A run is one invocation and what follows from its outcome: a pause is handed to the
peer, results are followed by a notice to the peer, and a fault is fatal. The main loop takes
notices from the runs and from the server and ends the host.

Several things go on at once. The behaviour is therefore a step function over events, each of which
is one uninterrupted piece of work: of the main loop, of one run, or of the server on one request.
Calls to the peer leave the host as messages, and their replies come back as events.
-/

namespace Ferry

namespace Remote

/-- What one run is doing. -/
inductive Stage where
  /-- It has not begun its invocation. -/
  | spawned (snapshot : Option Snapshot)
  /-- It is in its invocation, under a guard of the controller. -/
  | invoking (guard : Nat) (invocation : Invocation)
  /-- Its invocation has ended. -/
  | returned (outcome : Outcome Fault)
  /-- It has handed its snapshot to the peer and waits for the reply. -/
  | handing
  /-- It has told the peer of its end and waits for the reply. -/
  | telling (results : List Word)
  deriving DecidableEq, Repr

/-- One run. -/
structure Run where
  /-- The number of the run, counted from zero. -/
  id : Nat
  stage : Stage
  deriving DecidableEq, Repr

/-- What the main loop is told. -/
inductive Notice where
  /-- A run has ended with results, and the peer knows. -/
  | completed (results : List Word)
  /-- The peer has told of the end. -/
  | finished
  /-- A run has failed. -/
  | failed (failure : Failure)
  deriving DecidableEq, Repr

/-- What the main loop is doing. -/
inductive Loop where
  /-- The server is up, and the loop has not begun. -/
  | starting (initial : Option Snapshot)
  /-- It waits for notices and keys. -/
  | waiting
  /-- The peer has told of the end, and the loop waits until the time given to it is over. -/
  | grace (deadline : Nat)
  /-- The host has ended. -/
  | ended (result : Except Failure Exit)

/-- A message to the peer. -/
inductive Call where
  | execute (request : Peer.ExecuteRequest)
  | finish (request : Peer.FinishRequest)
  deriving DecidableEq, Repr

/-- The reply to a message, or the reason why there is none. -/
inductive Answer where
  | execute (reply : Except Peer.Error Peer.ExecuteReply)
  | finish (reply : Except Peer.Error Peer.FinishReply)

end Remote

/-- A host in remote mode. -/
structure Remote extends Host where
  /-- The access to the peer, which every remote host has. -/
  peer : Peer.Caller
  loop : Remote.Loop
  /-- The runs that have not come to their end, oldest first. -/
  runs : List Remote.Run := []
  /-- The number of runs so far. -/
  spawned : Nat := 0
  /-- What the main loop has not been told yet, oldest first. -/
  inbox : List Remote.Notice := []
  /-- Whether the server has come up. Requests that are under way when the host ends are still
  answered. -/
  serving : Bool := true
  /-- Whether the main loop has told the runs and the server that the host has ended. -/
  shutDown : Bool := false

namespace Remote

/-- What can happen to a remote host. -/
inductive Event where
  /-- The main loop begins. -/
  | begin
  /-- A run begins its invocation. -/
  | invoke (run : Nat)
  /-- A run passes one boundary of its invocation. -/
  | turn (run : Nat)
  /-- A run deals with the outcome of its invocation. -/
  | settle (run : Nat)
  /-- A run gets the reply to its message. -/
  | answer (run : Nat) (answer : Answer)
  /-- The server gets a request to take over a computation. -/
  | execute (request : Peer.ExecuteRequest)
  /-- The server gets a notice of an end. -/
  | finish (request : Peer.FinishRequest)
  /-- The main loop takes the oldest notice. -/
  | notice
  /-- The main loop takes notice of a key. -/
  | key (action : KeyAction)
  /-- The time between the peer's notice of the end and the end is over. -/
  | graceOver
  /-- Time passes. -/
  | elapse (milliseconds : Nat)

/-- A host whose server is about to serve. One that starts immediately needs its artifact. -/
def start (host : Host) (peer : Peer.Caller) (directory : Directory) : Remote :=
  if host.config.startImmediately then
    match Host.loadInitial host.config directory with
    | .ok initial => { host with peer, loop := .starting initial }
    | .error failure =>
        { host with peer, loop := .ended (.error failure), serving := false, shutDown := true }
  else { host with peer, loop := .starting none }

/-- The remote host of a configuration. -/
def ofConfig? (config : Config) (id : SessionId) (directory : Directory) :
    Except Failure Remote := do
  let host ← Host.ofConfig? config id
  match host.caller with
  | some peer => .ok (start host peer directory)
  | none => .error (.configuration "no peer address configured")

/-- How the host ended, if it has. -/
def result? (host : Remote) : Option (Except Failure Exit) :=
  match host.loop with
  | .ended result => some result
  | _ => none

/-- Ends the host; an invocation in flight is asked to stop. -/
def conclude (host : Remote) (result : Except Failure Exit) : Remote :=
  let ended := { host with loop := .ended result, shutDown := true }
  if host.session.phase.isActive then { ended with toHost := ended.toHost.request } else ended

/-- Adds a run. -/
def spawn (host : Remote) (snapshot : Option Snapshot) : Remote :=
  { host with
    runs := host.runs ++ [⟨host.spawned, .spawned snapshot⟩]
    spawned := host.spawned + 1 }

/-- The stage of a run. -/
def stage? (host : Remote) (run : Nat) : Option Stage :=
  (host.runs.find? fun r => r.id == run).map Run.stage

/-- Moves a run to another stage. -/
def setStage (host : Remote) (run : Nat) (stage : Stage) : Remote :=
  { host with runs := host.runs.map fun r => if r.id = run then { r with stage } else r }

/-- Removes a run. -/
def removeRun (host : Remote) (run : Nat) : Remote :=
  { host with runs := host.runs.filter fun r => r.id ≠ run }

/-- Leaves a notice for the main loop. -/
def tell (host : Remote) (notice : Notice) : Remote :=
  { host with inbox := host.inbox ++ [notice] }

/-- Removes a run and tells the main loop what became of it. -/
def endRun (host : Remote) (run : Nat) (notice : Notice) : Remote :=
  (host.removeRun run).tell notice

/-- The main loop begins: it starts a run if it is told to. If the session does not allow that, the
loop ends without telling the runs and the server. -/
def beginLoop (host : Remote) (initial : Option Snapshot) : Remote :=
  if host.config.startImmediately then
    match host.toHost.enterRun initial with
    | .error failure => { host with loop := .ended (.error failure) }
    | .ok entered => ({ host with toHost := entered, loop := .waiting }).spawn initial
  else { host with loop := .waiting }

/-- A run begins its invocation. -/
def beginInvocation (host : Remote) (run : Nat) (snapshot : Option Snapshot) : Remote :=
  let (guard, begun) := host.toHost.beginGuard
  match Host.invoke host.config snapshot with
  | .ok invocation =>
      { host with toHost := begun }.setStage run (.invoking guard invocation)
  | .error fault =>
      { host with toHost := begun.dropGuard guard }.setStage run (.returned (.faulted fault))

/-- A run passes one boundary of its invocation. -/
def turnRun (host : Remote) (run guard : Nat) (invocation : Invocation) : Remote :=
  match host.toHost.turn invocation with
  | (.going next, after) => { host with toHost := after }.setStage run (.invoking guard next)
  | (.ended outcome, after) =>
      { host with toHost := after.dropGuard guard }.setStage run (.returned outcome)

/-- The account of a pause that is handed over at once: the snapshot is kept, taken out, and marked
as transmitted. -/
def handOver (session : Session) (snapshot : Snapshot) :
    Except Failure (Option Snapshot × Session) := do
  let paused ← session.pause snapshot
  let (pending, taken) := paused.takePending
  let moved ← taken.moveTo .transmitted
  .ok (pending, moved)

/-- A run deals with the outcome of its invocation, which is discarded once the host has been shut
down. -/
def settleRun (host : Remote) (run : Nat) (outcome : Outcome Fault) : Remote × Option Call :=
  if host.shutDown then (host.removeRun run, none)
  else
    match outcome with
    | .completed results =>
        match host.session.moveTo .completed with
        | .error failure => (host.endRun run (.failed failure), none)
        | .ok session =>
            (({ host with session := session }).setStage run (.telling results),
              some (.finish ⟨session.id⟩))
    | .paused snapshot =>
        match handOver host.session snapshot with
        | .error failure => (host.endRun run (.failed failure), none)
        | .ok (none, session) => (({ host with session := session }).removeRun run, none)
        | .ok (some pending, session) =>
            (({ host with session := session }).setStage run .handing,
              some (.execute (.resume session.id host.config.program.name pending)))
    | .faulted fault => (host.endRun run (.failed fault.toFailure), none)

/-- A run gets the reply to its message. -/
def answerRun (host : Remote) (run : Nat) : Stage → Answer → Option Remote
  | .handing, .execute (.ok reply) =>
      if reply.ok then some (host.removeRun run)
      else some (host.endRun run (.failed (.transport "execute" "peer refused the snapshot")))
  | .handing, .execute (.error error) => some (host.endRun run (.failed error.toFailure))
  | .telling results, .finish (.ok _) => some (host.endRun run (.completed results))
  | .telling _, .finish (.error error) => some (host.endRun run (.failed error.toFailure))
  | _, _ => none

/-- Takes over a computation, or refuses it. It must belong to the program of the host, its snapshot
must be well formed, and no run may be in flight or have ended the computation. -/
def takeOver (host : Remote) (request : Peer.ExecuteRequest) :
    Except Failure Peer.ExecuteReply × Remote :=
  if request.program ≠ host.config.program.name then (.ok ⟨false⟩, host)
  else
    match request.check with
    | .error failure => (.error failure, host)
    | .ok () =>
        if host.session.phase.isActive ∨ host.session.phase.isTerminal then (.ok ⟨false⟩, host)
        else
          match host.session.receive request.session request.resumable? with
          | .error failure => (.error failure, host)
          | .ok received =>
              let (snapshot, session) := received.takeReceived
              (.ok ⟨true⟩, ({ host with session := session }).spawn snapshot)

/-- Takes notice of an end, if it is that of the computation that was handed over from here. -/
def takeNotice (host : Remote) (request : Peer.FinishRequest) :
    Except Failure Peer.FinishReply × Remote :=
  if request.session = host.session.id ∧ host.session.phase = .transmitted then
    (.ok ⟨⟩, host.tell .finished)
  else (.ok ⟨⟩, host)

/-- What stands behind the endpoints of the host. -/
def service : Peer.Service Remote where
  execute := takeOver
  finish := takeNotice

/-- The main loop takes a notice. -/
def hear (host : Remote) : Notice → Remote
  | .completed results => host.conclude (.ok (.completed results))
  | .finished => { host with loop := .grace (host.controller.now + host.config.finishGrace) }
  | .failed failure => host.conclude (.error failure)

/-- The main loop takes notice of a key. -/
def press (host : Remote) : KeyAction → Remote
  | .abort => host.conclude (.ok .aborted)
  | .snapshotNow => { host with toHost := host.toHost.request }
  | .resumeOrRun => host

/-- The state after an event, if it can happen, and the message to the peer that leaves the host. -/
def step (host : Remote) : Event → Option (Remote × Option Call)
  | .begin =>
      match host.loop with
      | .starting initial => some (host.beginLoop initial, none)
      | _ => none
  | .invoke run =>
      match host.stage? run with
      | some (.spawned snapshot) => some (host.beginInvocation run snapshot, none)
      | _ => none
  | .turn run =>
      match host.stage? run with
      | some (.invoking guard invocation) => some (host.turnRun run guard invocation, none)
      | _ => none
  | .settle run =>
      match host.stage? run with
      | some (.returned outcome) => some (host.settleRun run outcome)
      | _ => none
  | .answer run answer =>
      match host.stage? run with
      | some stage => (host.answerRun run stage answer).map fun next => (next, none)
      | none => none
  | .execute request => if host.serving then some ((host.takeOver request).2, none) else none
  | .finish request => if host.serving then some ((host.takeNotice request).2, none) else none
  | .notice =>
      match host.loop, host.inbox with
      | .waiting, notice :: rest => some ({ host with inbox := rest }.hear notice, none)
      | _, _ => none
  | .key action =>
      match host.loop with
      | .waiting => some (host.press action, none)
      | _ => none
  | .graceOver =>
      match host.loop with
      | .grace deadline =>
          if deadline ≤ host.controller.now then some (host.conclude (.ok .finished), none)
          else none
      | _ => none
  | .elapse milliseconds => some ({ host with toHost := host.toHost.elapse milliseconds }, none)

end Remote

end Ferry
