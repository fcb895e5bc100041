import Ferry.Artifact.File
import Ferry.Config
import Ferry.Keyboard
import Ferry.Peer.Caller
import Ferry.Session.Basic
import Ferry.Trigger.Controller

/-!
# Hosts

A host drives one computation: it has a configuration, an account of the computation, a controller
for the signal, and access to the peer if there is one. What a host does in local and in remote mode
is said elsewhere; here is what both share.
-/

namespace Ferry

/-- How a run of a host ended. -/
inductive Exit where
  /-- The computation returned its results here. -/
  | completed (results : List Word)
  /-- The peer gave notice of the end. -/
  | finished
  /-- A snapshot was written to a file. -/
  | exported (path : String)
  /-- The operator stopped the run. -/
  | aborted
  deriving DecidableEq, Repr

/-- What drives one computation. -/
structure Host where
  config : Config
  /-- The access to the peer. -/
  caller : Option Peer.Caller
  session : Session
  controller : Controller

namespace Host

/-- The access to the peer of a configuration. -/
def callerOf (config : Config) : Except Failure (Option Peer.Caller) :=
  match config.peer with
  | none => .ok none
  | some address =>
      match Peer.Caller.ofAddress? address config.transportTimeout with
      | .ok caller => .ok (some caller)
      | .error error => .error error.toFailure

/-- The host of a configuration, with the id that its computation has at first. It is refused if
the address of the peer cannot be used. -/
def ofConfig? (config : Config) (id : SessionId) : Except Failure Host := do
  let caller ← callerOf config
  .ok {
    config
    caller
    session := { mode := config.mode, peer := config.peer, id }
    controller := { policy := config.policy } }

/-- The snapshot that a configuration starts from: that of its artifact, which must belong to its
program. One that is not valid stands for a start from the beginning. -/
def loadInitial (config : Config) (directory : Directory) : Except Failure (Option Snapshot) := do
  match config.fromSnapshot with
  | none => .ok none
  | some path =>
      let stored ← SnapshotFile.read directory path
      stored.ensureProgram config.program.name
      .ok ((some stored.snapshot).filter (·.valid))

/-- The invocation that continues a valid snapshot, or else calls the program. -/
def invoke (config : Config) (snapshot : Option Snapshot) : Except Fault Invocation :=
  match snapshot.filter (·.valid) with
  | some valid => config.engine.resume valid
  | none => config.engine.call config.program.entry config.arguments

/-- Moves the session to the phase of a run, with a snapshot or without. -/
def enterRun (host : Host) (snapshot : Option Snapshot) : Except Failure Host := do
  let session ← host.session.moveTo (Session.phaseOnReceipt snapshot)
  .ok { host with session }

/-- One invocation under the trigger policy from its beginning to its end, if that takes at most
`fuel` boundaries. Besides the policy the signal is armed right before boundary `k` if `arms k`. -/
def executeOnce (host : Host) (arms : Nat → Bool) (fuel : Nat) (snapshot : Option Snapshot) :
    Option (Outcome Fault × Host) :=
  let (guard, controller) := host.controller.beginRun
  match host.config.engine.play arms fuel controller.signal (invoke host.config snapshot) with
  | none => none
  | some (outcome, signal) =>
      let (_, controller) := { controller with signal }.drop guard
      some (outcome, { host with controller })

/-- Lets time pass. -/
def elapse (host : Host) (milliseconds : Nat) : Host :=
  { host with controller := host.controller.advance milliseconds }

/-- Asks for a pause at the next boundary. -/
def request (host : Host) : Host := { host with controller := host.controller.request }

/-- Begins the guard of an invocation. -/
def beginGuard (host : Host) : Nat × Host :=
  let (guard, controller) := host.controller.beginRun
  (guard, { host with controller })

/-- Drops the guard of an invocation. -/
def dropGuard (host : Host) (guard : Nat) : Host :=
  { host with controller := (host.controller.drop guard).2 }

/-- Passes one boundary of an invocation. -/
def turn (host : Host) (invocation : Invocation) : Turn × Host :=
  let (turn, signal) := host.config.engine.turn host.controller.signal invocation
  (turn, { host with controller := { host.controller with signal } })

end Host

end Ferry
