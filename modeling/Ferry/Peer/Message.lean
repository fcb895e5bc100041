import Ferry.Session.Id
import Ferry.Snapshot.Bytes

/-!
# Messages between peers

A peer is asked to take over a computation, and told when it has ended. Every request has a reply.
-/

namespace Ferry.Peer

/-- The wish that the peer takes over a computation. -/
structure ExecuteRequest where
  /-- The id of the computation. -/
  session : SessionId
  /-- The name of the program. -/
  program : String
  /-- Where to go on; without a snapshot, or with one that is not valid, from the beginning. -/
  snapshot : Option Snapshot
  deriving DecidableEq, Repr

namespace ExecuteRequest

/-- The wish that the peer goes on with a snapshot. -/
def resume (session : SessionId) (program : String) (snapshot : Snapshot) : ExecuteRequest :=
  ⟨session, program, some snapshot⟩

/-- The wish that the peer starts from the beginning. -/
def start (session : SessionId) (program : String) : ExecuteRequest := ⟨session, program, none⟩

/-- Refuses a request whose snapshot is not well formed. -/
def check (request : ExecuteRequest) : Except Failure Unit :=
  match request.snapshot with
  | some snapshot => snapshot.check
  | none => .ok ()

/-- The snapshot to go on with, if there is one. -/
def resumable? (request : ExecuteRequest) : Option Snapshot :=
  request.snapshot.filter (·.valid)

end ExecuteRequest

/-- Whether the peer has taken over the computation. -/
structure ExecuteReply where
  ok : Bool
  deriving DecidableEq, Repr

/-- The notice that a computation has ended. -/
structure FinishRequest where
  /-- The id of the computation. -/
  session : SessionId
  deriving DecidableEq, Repr

/-- The acknowledgement of a notice. -/
structure FinishReply where
  deriving DecidableEq, Repr

instance : Wire ExecuteRequest where
  write request :=
    Wire.write request.session ++ Wire.write request.program ++ Wire.write request.snapshot
  read :=
    (Wire.read (α := SessionId)).andThen fun session =>
    (Wire.read (α := String)).andThen fun program =>
    Wire.Reader.map (fun snapshot => ⟨session, program, snapshot⟩)
      (Wire.read (α := Option Snapshot))

instance : Wire ExecuteReply where
  write reply := Wire.write reply.ok
  read := Wire.Reader.map ExecuteReply.mk Wire.read

instance : Wire FinishRequest where
  write request := Wire.write request.session
  read := Wire.Reader.map FinishRequest.mk Wire.read

instance : Wire FinishReply where
  write _ := []
  read input := .ok (⟨⟩, input)

end Ferry.Peer
