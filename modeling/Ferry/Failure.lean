/-!
# Failures

Every condition that ends a run of the program without a result is one of these failures. A
paused computation is not a failure and has no constructor here.
-/

namespace Ferry

/-- Why a run ended without a result. -/
inductive Failure where
  /-- Conflicting or unsupported options, found before anything runs. -/
  | configuration (reason : String)
  /-- The peer could not be reached or gave no usable answer. -/
  | transport (operation reason : String)
  /-- A call to the peer exceeded its deadline. -/
  | timeout (operation : String)
  /-- Stored or received bytes are no well-formed snapshot. -/
  | deserialization (reason : String)
  /-- The program trapped, or could not be called or resumed. -/
  | engineFault (reason : String)
  /-- A file could not be read or written. -/
  | io (path reason : String)
  /-- A session was asked for a move that its phase does not allow. -/
  | invalidState (source target : String)
  /-- A value could not be put into bytes. -/
  | invalidEncoding
  deriving DecidableEq, Repr

namespace Failure

/-- The short, stable name of the class a failure belongs to. -/
def kind : Failure → String
  | configuration _ => "configuration"
  | transport _ _ => "transport"
  | timeout _ => "timeout"
  | deserialization _ => "deserialization"
  | engineFault _ => "engine_fault"
  | io _ _ => "io"
  | invalidState _ _ => "invalid_state"
  | invalidEncoding => "deserialization"

/-- The text shown to the operator. -/
def message : Failure → String
  | configuration reason => s!"Configuration error: {reason}"
  | transport operation reason => s!"Transport error during {operation}: {reason}"
  | timeout operation => s!"Timeout: {operation}"
  | deserialization reason => s!"Snapshot deserialization failed: {reason}"
  | engineFault reason => s!"Engine fault: {reason}"
  | io path reason => s!"IO error on {path}: {reason}"
  | invalidState source target => s!"Invalid state transition: {source} -> {target}"
  | invalidEncoding => "Invalid encoding"

end Failure

end Ferry
