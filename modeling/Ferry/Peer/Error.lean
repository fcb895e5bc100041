import Ferry.Failure
import Ferry.Text.Quoted
import Ferry.Wire.Basic

/-!
# Errors of the exchange with a peer

A call to the peer can fail on the way, and a server can fail to serve. Errors of a call name the
operation that was called.
-/

namespace Ferry.Peer

/-- Why an exchange with the peer failed. -/
inductive Error where
  /-- The peer could not be reached. -/
  | connection (operation reason : String)
  /-- The peer did not answer in time. -/
  | timeout (operation : String) (milliseconds : Nat)
  /-- The peer answered with a status that is no success. -/
  | status (operation : String) (code : Nat) (body : String)
  /-- A message could not be read. -/
  | codec (operation reason : String)
  /-- The server could not be set up, or failed. -/
  | server (address reason : String)
  /-- The address of the peer cannot be used. -/
  | invalidAddress (address : String)
  deriving DecidableEq, Repr

namespace Error

/-- The description of an error. -/
def message : Error → String
  | connection operation reason => s!"{operation}: connection failed: {reason}"
  | timeout operation milliseconds => s!"{operation}: request timeout after {milliseconds}ms"
  | status operation code body => s!"{operation}: peer answered {code}: {body}"
  | codec operation reason => s!"{operation}: codec error: {reason}"
  | server address reason => s!"server error on {address}: {reason}"
  | invalidAddress address => s!"invalid peer address {Text.quoted address}"

/-- The operation that an error belongs to. -/
def operation? : Error → Option String
  | .connection operation _ | .timeout operation _ | .status operation _ _
  | .codec operation _ => some operation
  | .server _ _ | .invalidAddress _ => none

/-- The failure that ends a run after an error. -/
def toFailure (error : Error) : Failure :=
  match error with
  | timeout operation _ => .timeout operation
  | invalidAddress _ => .configuration error.message
  | _ => .transport (error.operation?.getD "serve") error.message

end Error

/-- Reads a message that is the whole of a body. -/
def decode {α : Type} [Wire α] (operation : String) (body : Bytes) : Except Error α :=
  match Wire.decode (α := α) body with
  | .ok message => .ok message
  | .error (.malformed cause) => .error (.codec operation cause.message)
  | .error (.trailing count) => .error (.codec operation s!"{count} trailing bytes")

end Ferry.Peer
