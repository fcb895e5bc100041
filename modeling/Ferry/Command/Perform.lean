import Ferry.Command.Report
import Ferry.Host.Remote.Play

/-!
# Carrying out commands

A command is carried out in surroundings: there are files, and hosts can be driven there. It leaves
an exit code, a text for the standard output and perhaps changed files. A run under the manual
policy needs an operator at a terminal, and a remote one a peer. Surroundings without an operator
are played here; real ones are built where the program meets the operating system.
-/

namespace Ferry.Command

/-- What a command leaves behind. -/
structure Result where
  /-- The exit code. -/
  code : Nat
  /-- What stands on the standard output. -/
  text : String := ""
  /-- Why the command was not carried out. -/
  complaint : Option String := none
  deriving DecidableEq, Repr

namespace Result

/-- A command that did what it was asked to do. -/
def success (text : String) : Result := { code := 0, text }

/-- A command that failed. -/
def failure (failure : Failure) : Result := { code := 1, complaint := some failure.message }

/-- A text, or a failure. -/
def ofText : Except Failure String → Result
  | .ok text => success text
  | .error cause => failure cause

end Result

/-- The text that `--version` asks for. -/
def versionText : String := "skiff 0.1.0\n"

/-- The text that `--help` asks for. -/
def helpText : String := String.join [
  "Usage: skiff [OPTIONS] <COMMAND>\n\nCommands:\n",
  "  run       Run a program\n",
  "  inspect   Show the contents of a snapshot artifact\n",
  "  programs  List built-in programs\n",
  "  help      Print this message\n\nOptions:\n",
  "  -q, --quiet                Only log warnings and errors\n",
  "      --log-format <FORMAT>  Log output format: text or json\n",
  "  -h, --help                 Print help\n",
  "  -V, --version              Print version\n"]

/-- What is left behind by a command line that leads to no command. -/
def Stop.result : Stop → Result
  | help => .success helpText
  | version => .success versionText
  | misuse reason => { code := 2, complaint := some reason }

/-- Shows what an artifact holds. -/
def inspect (directory : Directory) (path : String) (asJson : Bool) : Result :=
  .ofText ((SnapshotFile.read directory path).map fun stored =>
    if asJson then stored.json.pretty 0 ++ "\n" else stored.report)

/-- The failure of a run that needs an operator where there is none. -/
def noTerminal : Failure := .io "<terminal>" "not a terminal"

/-- The failure of a run that cannot listen at its address. -/
def cannotListen (address : String) : Failure :=
  (Peer.Error.server address "unsuitable address").toFailure

/-- A host that can be driven. -/
inductive Undertaking where
  /-- A local host. -/
  | alone (host : Local)
  /-- A remote host, with the host name and the port at which it listens. -/
  | withPeer (host : Remote) (listen : String × UInt16)

/-- The host of a configuration, with an operator at a terminal or without one. -/
def undertake (terminal : Bool) (id : SessionId) (directory : Directory) (config : Config) :
    Except Failure Undertaking :=
  let attended (undertaking : Undertaking) : Except Failure Undertaking :=
    if config.policy.isManual && !terminal then .error noTerminal else .ok undertaking
  match config.mode with
  | .local => do attended (.alone (← Local.ofConfig? config id directory terminal))
  | .remote => do
      let host ← Remote.ofConfig? config id directory
      match Peer.Address.socket? config.listen with
      | some listen => attended (.withPeer host listen)
      | none => .error (cannotListen config.listen)

/-- Where commands are carried out. -/
structure Surroundings (m : Type → Type) where
  /-- The files to which some paths lead. -/
  files : List String → m Directory
  /-- Runs a configuration to its end. -/
  run : Config → m (Except Failure Exit)

/-- Carries out the command of a command line. -/
def carryOut {m : Type → Type} [Monad m] (surroundings : Surroundings m) (line : Line) : m Result :=
  match line.job with
  | .programs => pure (.success Catalog.builtin.report)
  | .inspect path asJson => do
      let directory ← surroundings.files [path]
      pure (inspect directory path asJson)
  | .run options =>
      match Config.ofOptions? options .builtin with
      | .error failure => pure (.failure failure)
      | .ok config => do
          let exit ← surroundings.run config
          pure (.ofText (exit.map Exit.line))

variable {σ : Type}

/-- Plays a host to its end, with the files that are then there. There is no end if the host waits
for a peer that does not call. -/
def Undertaking.play (link : Peer.Link) (service : Peer.Service σ) (state : σ) (fuel : Nat)
    (directory : Directory) : Undertaking → Option (Except Failure Exit × Directory)
  | alone host =>
      (host.play {} fuel 0 []).bind fun ended =>
        ended.result?.map fun result => (result, ended.directory)
  | withPeer host _ =>
      let (ended, _) := host.play {} link service fuel 0 state
      ended.result?.map fun result => (result, directory)

/-- Surroundings with files but without an operator; the peer of a remote host is a service. -/
def Surroundings.quiet (link : Peer.Link) (service : Peer.Service σ) (state : σ) (fuel : Nat)
    (id : SessionId) : Surroundings (StateT Directory Option) where
  files _ := get
  run config := fun directory =>
    match undertake false id directory config with
    | .error failure => some (.error failure, directory)
    | .ok undertaking => undertaking.play link service state fuel directory

/-- Carries out a command line without an operator, with the files that are then there. -/
def perform (link : Peer.Link) (service : Peer.Service σ) (state : σ) (fuel : Nat)
    (id : SessionId) (directory : Directory) (words : List String) : Option (Result × Directory) :=
  match Line.ofWords? words with
  | .error stop => some (stop.result, directory)
  | .ok line => carryOut (.quiet link service state fuel id) line directory

end Ferry.Command
