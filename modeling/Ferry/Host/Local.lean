import Ferry.Host.Basic

/-!
# Hosts in local mode

A local host runs its computation in one invocation after the other. Before each of them it passes
a gate; under the manual policy the gate waits for an action of the operator. A pause leads back to
the gate, or to a file and the end. While an invocation runs the operator can ask for a pause, stop
the run, or open the next gate in advance.

The behaviour is a step function over events: what the host does by itself, what the operator does,
and the passing of time. An event that cannot happen in a state has no step.
-/

namespace Ferry

/-- What a local host is about. -/
inductive Local.Stage where
  /-- Before the next invocation, which continues the snapshot if there is one. -/
  | gate (pending : Option Snapshot)
  /-- In an invocation, under a guard of the controller. -/
  | running (guard : Nat) (invocation : Invocation)
  /-- The run has ended. -/
  | ended (result : Except Failure Exit)

/-- A host in local mode. -/
structure Local extends Host where
  /-- The files around the host. -/
  directory : Directory
  /-- Whether the operator can still press keys. -/
  keyboardOpen : Bool
  /-- Whether the next gate was opened in advance. -/
  queued : Bool := false
  stage : Local.Stage

namespace Local

/-- What can happen to a local host. -/
inductive Event where
  /-- The host does what it does by itself. -/
  | proceed
  /-- The host takes notice of a key. -/
  | key (action : KeyAction)
  /-- The keyboard closes. -/
  | closeKeyboard
  /-- Time passes. -/
  | elapse (milliseconds : Nat)
  deriving DecidableEq, Repr

/-- A host at its first gate, or at its end if the snapshot to start from cannot be read. -/
def start (host : Host) (directory : Directory) (keyboardOpen : Bool) : Local :=
  { host with
    directory
    keyboardOpen
    stage :=
      match Host.loadInitial host.config directory with
      | .ok pending => .gate pending
      | .error failure => .ended (.error failure) }

/-- The local host of a configuration. -/
def ofConfig? (config : Config) (id : SessionId) (directory : Directory) (keyboardOpen : Bool) :
    Except Failure Local := do
  let host ← Host.ofConfig? config id
  .ok (start host directory keyboardOpen)

/-- Ends the run. -/
def finish (host : Local) (result : Except Failure Exit) : Local :=
  { host with stage := .ended result }

/-- Ends the run by the will of the operator; an invocation in flight is asked to stop. -/
def abort (host : Local) : Local :=
  { host with toHost := host.toHost.request, stage := .ended (.ok .aborted) }

/-- Writes the snapshot of a pause to a file and ends the run. -/
def exportSnapshot (host : Local) (snapshot : Snapshot) : Local :=
  let path := host.config.exportPath
  let (written, directory) :=
    SnapshotFile.write host.directory path host.config.program.name snapshot
  let host := { host with directory }
  match written with
  | .error failure => host.finish (.error failure)
  | .ok _ =>
      match host.session.moveTo .exported with
      | .error failure => host.finish (.error failure)
      | .ok session => { host with session }.finish (.ok (.exported path))

/-- Goes on after an invocation, whose guard has been dropped. -/
def settle (host : Local) : Outcome Fault → Local
  | .completed results =>
      match host.session.moveTo .completed with
      | .error failure => host.finish (.error failure)
      | .ok session => { host with session }.finish (.ok (.completed results))
  | .paused snapshot =>
      match host.session.pause snapshot with
      | .error failure => host.finish (.error failure)
      | .ok paused =>
          let (pending, session) := paused.takePending
          let host := { host with session }
          match host.config.exportOnly, pending with
          | true, some snapshot => host.exportSnapshot snapshot
          | _, _ => { host with stage := .gate pending }
  | .faulted fault => host.finish (.error fault.toFailure)

/-- Begins an invocation. -/
def launch (host : Local) (pending : Option Snapshot) : Local :=
  match host.toHost.enterRun pending with
  | .error failure => host.finish (.error failure)
  | .ok entered =>
      let (guard, begun) := entered.beginGuard
      match Host.invoke host.config pending with
      | .ok invocation => { host with toHost := begun, stage := .running guard invocation }
      | .error fault => { host with toHost := begun.dropGuard guard }.settle (.faulted fault)

/-- Passes one boundary of the invocation in flight. -/
def turn (host : Local) (guard : Nat) (invocation : Invocation) : Local :=
  match host.toHost.turn invocation with
  | (.going next, after) => { host with toHost := after, stage := .running guard next }
  | (.ended outcome, after) => { host with toHost := after.dropGuard guard }.settle outcome

/-- What the host does by itself. At a gate that waits for the operator it does nothing, unless
nobody can press a key any more. -/
def proceed (host : Local) : Option Local :=
  match host.stage with
  | .gate pending =>
      if ¬ host.config.policy.isManual then some (host.launch pending)
      else if host.queued then some ({ host with queued := false }.launch pending)
      else if host.keyboardOpen then none
      else some host.abort
  | .running guard invocation => some (host.turn guard invocation)
  | .ended _ => none

/-- Takes notice of a key: at a gate that waits for it, or during an invocation. -/
def press (host : Local) (action : KeyAction) : Option Local :=
  match host.stage with
  | .gate pending =>
      if host.config.policy.isManual ∧ ¬ host.queued then
        match action with
        | .resumeOrRun => some (host.launch pending)
        | .snapshotNow => some ({ host with toHost := host.toHost.request }.launch pending)
        | .abort => some host.abort
      else none
  | .running guard _ =>
      match action with
      | .resumeOrRun => some { host with queued := true }
      | .snapshotNow => some { host with toHost := host.toHost.request }
      | .abort => some { host with toHost := host.toHost.dropGuard guard }.abort
  | .ended _ => none

/-- The state after an event, if it can happen. -/
def step (host : Local) : Event → Option Local
  | .proceed => host.proceed
  | .key action => if host.keyboardOpen then host.press action else none
  | .closeKeyboard => if host.keyboardOpen then some { host with keyboardOpen := false } else none
  | .elapse milliseconds => some { host with toHost := host.toHost.elapse milliseconds }

/-- The state after several events, if all of them can happen. -/
def run : Local → List Event → Option Local
  | host, [] => some host
  | host, event :: rest => (host.step event).bind fun next => next.run rest

/-- How the run ended, if it has. -/
def result? (host : Local) : Option (Except Failure Exit) :=
  match host.stage with
  | .ended result => some result
  | _ => none

end Local

end Ferry
