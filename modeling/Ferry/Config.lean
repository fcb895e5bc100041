import Ferry.Machine.Engine
import Ferry.Mode
import Ferry.Program.Catalog
import Ferry.Text.Blank
import Ferry.Trigger.Policy

/-!
# Configurations

The options of a run are what the operator gave; a configuration is what they mean. Options are
judged in a fixed order: the trigger policy, the mode, what does not fit the mode, the program, and
the arguments.
-/

namespace Ferry

/-- The options of a run, as they were given. -/
structure Options where
  /-- The name of the program. -/
  program : String := "fib"
  /-- The arguments; none means those that the program has by default. -/
  arguments : List Word := []
  mode : String := "local"
  /-- The address of the peer. -/
  peer : Option String := none
  /-- The address at which the server listens. -/
  listen : Option String := none
  trigger : Policy.Selection := {}
  /-- The artifact to start from. -/
  fromSnapshot : Option String := none
  /-- Whether the first snapshot is written to a file and ends the run. -/
  exportOnly : Bool := false
  /-- The file for that snapshot. -/
  exportPath : Option String := none
  /-- Whether a remote run begins without being asked. -/
  startImmediately : Bool := false
  /-- How many milliseconds a call to the peer may take. -/
  transportTimeout : Option Nat := none
  /-- How many milliseconds pass between the peer's notice of the end and the end. -/
  finishGrace : Option Nat := none
  deriving DecidableEq, Repr

/-- A configuration that was judged fit. -/
structure Config where
  program : Program
  arguments : List Word
  mode : Mode
  peer : Option String
  listen : String
  policy : Policy
  fromSnapshot : Option String
  exportOnly : Bool
  exportPath : String
  startImmediately : Bool
  transportTimeout : Nat
  finishGrace : Nat
  /-- The greatest number of live activations. -/
  maxCallDepth : Nat := 10000

namespace Config

/-- The file for a snapshot if none is given. -/
def defaultExportPath : String := "snapshot.bin"

/-- The address at which the server listens if none is given. -/
def defaultListen : String := "0.0.0.0:50051"

/-- How many milliseconds a call to the peer may take if nothing is said about it. -/
def defaultTransportTimeout : Nat := 10000

/-- How many milliseconds pass before the end if nothing is said about it. -/
def defaultFinishGrace : Nat := 500

/-- Whether a peer is given by something else than blank characters. -/
def peerGiven (peer : Option String) : Bool :=
  match peer with
  | none => false
  | some address => (Text.trim address.toList).length ≠ 0

/-- Refuses options that do not fit the mode. -/
def checkMode (options : Options) : Mode → Except Failure Unit
  | .local =>
      if options.startImmediately then
        .error (.configuration "set mode to remote to use start")
      else .ok ()
  | .remote =>
      if options.exportOnly then
        .error (.configuration "export is only available in local mode")
      else if ¬ peerGiven options.peer then
        .error (.configuration "remote mode requires a peer address")
      else .ok ()

/-- The configuration that options mean, with the programs of a catalog. -/
def ofOptions? (options : Options) (catalog : Catalog) : Except Failure Config := do
  let policy ← Policy.ofSelection? options.trigger
  let mode ← Mode.ofText? options.mode
  checkMode options mode
  let program ← catalog.lookup options.program
  let arguments ← program.arguments options.arguments
  .ok {
    program
    arguments
    mode
    peer := options.peer
    listen := options.listen.getD defaultListen
    policy
    fromSnapshot := options.fromSnapshot
    exportOnly := options.exportOnly
    exportPath := options.exportPath.getD defaultExportPath
    startImmediately := options.startImmediately
    transportTimeout := options.transportTimeout.getD defaultTransportTimeout
    finishGrace := options.finishGrace.getD defaultFinishGrace }

/-- The engine for a configuration. -/
def engine (config : Config) : Engine := ⟨config.program.module, config.maxCallDepth⟩

end Config

end Ferry
