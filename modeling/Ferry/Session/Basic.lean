import Ferry.Mode
import Ferry.Session.Id
import Ferry.Session.Phase
import Ferry.Snapshot.Basic

/-!
# Sessions

A session keeps the account of one computation: its phase, the id it shares with the peer, the
snapshot that was captured here and waits to be exported or handed over, and the snapshot that was
received and waits to be resumed. An operation that the phase does not allow is refused, and then
the session is as it was.
-/

namespace Ferry

/-- The account of one computation. -/
structure Session where
  mode : Mode
  /-- The address of the peer. -/
  peer : Option String
  id : SessionId
  phase : Phase := .idle
  /-- The snapshot that waits to be exported or handed over. -/
  pending : Option Snapshot := none
  /-- The snapshot that waits to be resumed. -/
  received : Option Snapshot := none
  deriving DecidableEq, Repr

namespace Session

/-- Moves to another phase. -/
def moveTo (session : Session) (next : Phase) : Except Failure Session :=
  if session.phase.mayBecome next then .ok { session with phase := next }
  else .error (.invalidState session.phase.text next.text)

/-- Keeps a captured snapshot and moves to the pause. -/
def pause (session : Session) (snapshot : Snapshot) : Except Failure Session := do
  let moved ← session.moveTo .paused
  .ok { moved with pending := some snapshot }

/-- Takes out the snapshot that waits to be exported or handed over. -/
def takePending (session : Session) : Option Snapshot × Session :=
  (session.pending, { session with pending := none })

/-- The phase in which a computation is taken over, with a snapshot or without. -/
def phaseOnReceipt (snapshot : Option Snapshot) : Phase :=
  if snapshot.isSome then .resuming else .running

/-- Takes over a computation under the id that the peer gave it. -/
def receive (session : Session) (id : SessionId) (snapshot : Option Snapshot) :
    Except Failure Session := do
  let moved ← session.moveTo (phaseOnReceipt snapshot)
  .ok { moved with id, received := snapshot }

/-- Takes out the snapshot that waits to be resumed. -/
def takeReceived (session : Session) : Option Snapshot × Session :=
  (session.received, { session with received := none })

end Session

end Ferry
