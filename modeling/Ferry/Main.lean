import Ferry.Command.Perform
import Ferry.Peer.Http.Text
import Std.Async.DNS
import Std.Async.TCP
import Std.Async.Timer

/-!
# The program

Here the library meets the operating system: files are read and written, the clock and the keyboard
are turned into events, and requests and responses travel over sockets. What happens is decided by
the library; this module only carries things to and fro.
-/

namespace Ferry.Main

open Std.Async Command

/-- The bytes as an array. -/
def ofBytes (bytes : Bytes) : ByteArray := ⟨bytes.toArray⟩

/-- The bytes of an array. -/
def toBytes (bytes : ByteArray) : Bytes := bytes.data.toList

/-- Runs an action, and gives nothing if it fails. -/
def attempt {α : Type} (action : IO α) : IO (Option α) := do
  try some <$> action catch _ => pure none

/-- Adds what a path leads to, and the directories on the way. -/
def load (directory : Directory) (path : String) : IO Directory :=
  (Directory.stations path).foldlM (fun directory (path, location) => do
    if location.names.isEmpty then return directory
    if let some bytes ← attempt (IO.FS.readBinFile path) then
      return directory.put location (.file (toBytes bytes))
    if let some found ← attempt (IO.FS.realPath path) then
      if ← found.isDir then return directory.put location .directory
    return directory) directory

/-- The files to which some paths lead. -/
def files (paths : List String) : IO Directory := paths.foldlM load {}

/-- Writes a file as a whole. -/
def store (path : String) (bytes : Bytes) : IO Unit := do
  let temporary := SnapshotFile.temporaryPath path
  try
    IO.FS.writeBinFile temporary (ofBytes bytes)
    IO.FS.rename temporary path
  catch error =>
    let _ ← attempt (IO.FS.removeFile temporary)
    throw error

/-- Writes the files that are new or have changed. -/
def storeChanges (before after : Directory) : IO (Option Failure) := do
  for (path, bytes) in before.changes after do
    try store path bytes
    catch error => return some (.io path (toString error))
  return none

/-- A fresh session id. -/
def freshId : IO SessionId := do
  match FixedBytes.ofBytes? 16 (toBytes (← IO.getRandomBytes 16)) with
  | some random => pure (SessionId.ofRandom random)
  | none => throw (IO.userError "no random bytes")

/-! ## The keyboard -/

/-- What the operator has done and the host has not noticed. -/
structure Keyboard where
  /-- The actions that the keys of a line stand for, oldest first. -/
  actions : List KeyAction := []
  closed : Bool := false

/-- Reads lines until there are no more; every character of a line is a key. -/
partial def listenToKeys (keyboard : IO.Ref Keyboard) : IO Unit := do
  let line ← (← IO.getStdin).getLine
  if line.isEmpty then keyboard.modify fun k => { k with closed := true }
  else
    let pressed := line.toList.filterMap fun c => KeyMap.initial.actionOf? .press (.plain (.char c))
    keyboard.modify fun k => { k with actions := k.actions ++ pressed }
    listenToKeys keyboard

/-- A keyboard that is listened to if somebody is there. -/
def openKeyboard (attended : Bool) : IO (IO.Ref Keyboard) := do
  let keyboard ← IO.mkRef ({} : Keyboard)
  if attended then
    let _ ← IO.asTask (listenToKeys keyboard) Task.Priority.dedicated
  pure keyboard

/-- The oldest action that was not noticed. -/
def nextAction (keyboard : IO.Ref Keyboard) : IO (Option KeyAction) :=
  keyboard.modifyGet fun k =>
    match k.actions with
    | [] => (none, k)
    | action :: rest => (some action, { k with actions := rest })

/-! ## Local hosts -/

/-- How many events a host may go through before the world is looked at. -/
def stretch : Nat := 10000

/-- Drives a local host to its end; `since` is the time up to which it has been told of time. -/
partial def driveAlone (keyboard : IO.Ref Keyboard) (since : Nat) (host : Local) :
    IO (Except Failure Exit × Directory) := do
  match host.result? with
  | some result => pure (result, host.directory)
  | none =>
      let now ← IO.monoMsNow
      let mut host := host.hear (.elapse (now - since))
      if let some action ← nextAction keyboard then host := host.hear (.key action)
      if (← keyboard.get).closed then host := host.hear .closeKeyboard
      if host.waits then IO.sleep 5
      driveAlone keyboard now (host.work stretch)

/-! ## Sockets -/

/-- The address of a host and a port. -/
def resolve (host : String) (port : UInt16) : IO Std.Net.SocketAddress := do
  let addresses : Array Std.Net.IPAddr ← (DNS.getAddrInfo host "").block
  match addresses.toList with
  | .v4 address :: _ => pure (.v4 ⟨address, port⟩)
  | .v6 address :: _ => pure (.v6 ⟨address, port⟩)
  | [] => throw (IO.userError s!"no address for {host}")

/-- What comes next on a connection, before a deadline. Nothing means that it was closed. -/
def receive (client : TCP.Socket.Client) (deadline : Nat) : IO (Option ByteArray) := do
  let left := deadline - (← IO.monoMsNow)
  let timely : Async (Option (Option ByteArray)) := do pure (some (← client.recv? 65536))
  let late : Async (Option (Option ByteArray)) := do
    sleep (Std.Time.Millisecond.Offset.ofNat left)
    pure none
  match ← (Async.race timely late).block with
  | some received => pure received
  | none => throw (IO.userError "deadline")

/-- Receives until a message is complete. -/
partial def receiveMessage {α : Type} (client : TCP.Socket.Client) (deadline : Nat)
    (arrival : Bytes → Bool → Peer.Http.Arrival α) (sofar : Bytes) : IO (Option α) := do
  let received ← receive client deadline
  let bytes := sofar ++ (received.elim [] toBytes)
  match arrival bytes received.isNone with
  | .complete message => pure (some message)
  | .malformed => pure none
  | .incomplete => receiveMessage client deadline arrival bytes

/-- Sends a request to the peer and gives what became of it. -/
def deliver (caller : Peer.Caller) (request : Peer.Request) : IO Peer.Delivery := do
  let some target := Peer.Address.target? caller.baseUrl
    | return .unreachable "unsupported scheme"
  let deadline := (← IO.monoMsNow) + caller.timeout
  let exchange : IO Peer.Delivery := do
    let client ← TCP.Socket.Client.mk
    (client.connect (← resolve target.host target.port)).block
    let request := { request with target := target.path ++ request.target }
    (client.send (ofBytes (request.toBytes s!"{target.host}:{target.port}"))).block
    let response ← receiveMessage client deadline Peer.Response.arrival []
    let _ ← attempt client.shutdown.block
    pure (response.elim (.unreachable "no response") .answered)
  try exchange
  catch error =>
    if deadline ≤ (← IO.monoMsNow) then pure .late
    else pure (.unreachable (toString error))

/-- Answers the request that comes on a connection. -/
def answerClient (host : IO.Ref Remote) (client : TCP.Socket.Client) : IO Unit := do
  let deadline := (← IO.monoMsNow) + 10000
  if let some request ← receiveMessage client deadline Peer.Request.arrival [] then
    let response ← host.modifyGet fun host => Remote.service.answer host request
    (client.send (ofBytes response.toBytes)).block
  client.shutdown.block

/-- Accepts connections until the host has ended. -/
partial def acceptClients (host : IO.Ref Remote) (server : TCP.Socket.Server) : IO Unit := do
  if (← host.get).result?.isSome then return
  match ← server.tryAccept with
  | some client =>
      let _ ← IO.asTask (do let _ ← attempt (answerClient host client))
        Task.Priority.dedicated
  | none => IO.sleep 2
  acceptClients host server

/-! ## Remote hosts -/

/-- Drives a remote host to its end while clients are served. -/
partial def driveServed (keyboard : IO.Ref Keyboard) (since : Nat) (host : IO.Ref Remote) :
    IO (Except Failure Exit) := do
  if let some result := (← host.get).result? then return result
  let now ← IO.monoMsNow
  let action ← nextAction keyboard
  let call ← host.modifyGet fun host =>
    let elapsed := { host with toHost := host.toHost.elapse (now - since) }
    let pressed := match action with
      | some action => elapsed.pressKey action
      | none => elapsed
    let (worked, call) := pressed.work stretch
    (call, worked)
  if let some (run, call) := call then
    let caller := (← host.get).peer
    let _ ← IO.asTask (do
      let delivery ← deliver caller call.toRequest
      host.modify fun host => host.hearAnswer run (call.answer caller delivery))
      Task.Priority.dedicated
  else if (← host.get).runs.all fun run => run.nextEvent?.isNone then IO.sleep 1
  driveServed keyboard now host

/-- Drives a remote host that listens at an address. -/
def driveWithPeer (keyboard : IO.Ref Keyboard) (host : Remote) (listen : String × UInt16) :
    IO (Except Failure Exit) := do
  let opened ← try
      let server ← TCP.Socket.Server.mk
      server.bind (← resolve listen.1 listen.2)
      server.listen 128
      pure (some server)
    catch _ => pure none
  match opened with
  | none => pure (.error (cannotListen host.config.listen))
  | some server =>
      let host ← IO.mkRef host
      let accepting ← IO.asTask (acceptClients host server) Task.Priority.dedicated
      let result ← driveServed keyboard (← IO.monoMsNow) host
      let _ ← IO.wait accepting
      pure result

/-! ## Commands -/

/-- Runs a configuration. -/
def run (config : Config) : IO (Except Failure Exit) := do
  let attended := config.policy.isManual && (← (← IO.getStdin).isTty)
  let before ← files (config.fromSnapshot.toList ++
    [config.exportPath, SnapshotFile.temporaryPath config.exportPath])
  match undertake attended (← freshId) before config with
  | .error failure => pure (.error failure)
  | .ok undertaking =>
      let keyboard ← openKeyboard attended
      match undertaking with
      | .alone host =>
          let (result, after) ← driveAlone keyboard (← IO.monoMsNow) host
          match ← storeChanges before after with
          | some failure => pure (.error failure)
          | none => pure result
      | .withPeer host listen => driveWithPeer keyboard host listen

/-- Writes a line of the log to the standard error. -/
def log (format : LogFormat) (level message : String) : IO Unit :=
  match format with
  | .text => IO.eprintln s!"{level} {message}"
  | .json =>
      let document := Text.Json.object [("level", .text level), ("message", .text message)]
      IO.eprintln (document.pretty 0)

/-- Writes what a command leaves behind, and gives its exit code. -/
def leave (format : LogFormat) (result : Result) : IO UInt32 := do
  IO.print result.text
  if let some complaint := result.complaint then log format "ERROR" complaint
  pure result.code.toUInt32

/-- Carries out a command line and gives the exit code. -/
def obey (words : List String) : IO UInt32 := do
  match Line.ofWords? words with
  | .error stop => leave .text stop.result
  | .ok line =>
      if let .run options := line.job then
        if !line.quiet then log line.logFormat "INFO" s!"running {options.program}"
      leave line.logFormat (← carryOut ⟨files, run⟩ line)

end Ferry.Main

/-- The entry of the program. -/
def main (words : List String) : IO UInt32 := Ferry.Main.obey words
