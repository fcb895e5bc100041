import Ferry.Peer.Address
import Ferry.Peer.Endpoint
import Ferry.Text.Replacement

/-!
# Callers

A caller knows the address of a peer and how long to wait for an answer. A call is made once; its
error says whether the peer could not be reached, did not answer in time, answered with another
status than success, or answered with something that is no reply. A `Link` says what the network
makes of a call.
-/

namespace Ferry.Peer

/-- One side's access to its peer. -/
structure Caller where
  /-- The URL to which the paths of the endpoints are appended. -/
  baseUrl : String
  /-- How many milliseconds a call may take. -/
  timeout : Nat := 10000
  deriving DecidableEq, Repr

/-- What became of a request. -/
inductive Delivery where
  /-- The peer answered. -/
  | answered (response : Response)
  /-- The peer could not be reached. -/
  | unreachable (reason : String)
  /-- The peer did not answer in time. -/
  | late
  deriving DecidableEq, Repr

/-- The network between a caller and a server. -/
inductive Link where
  /-- Every request and its response arrive as they are. -/
  | up
  /-- No request arrives. -/
  | down
  deriving DecidableEq, Repr

/-- Sends a request to a service. -/
def Link.send {σ : Type} (link : Link) (service : Service σ) (state : σ) (request : Request) :
    Delivery × σ :=
  match link with
  | up =>
      let (response, after) := service.answer state request
      (.answered response, after)
  | down => (.unreachable "error sending request", state)

/-- The request that carries an execute message. -/
def ExecuteRequest.toRequest (message : ExecuteRequest) : Request :=
  ⟨"POST", executePath, some messageType, Wire.write message⟩

/-- The request that carries a finish message. -/
def FinishRequest.toRequest (message : FinishRequest) : Request :=
  ⟨"POST", finishPath, some messageType, Wire.write message⟩

/-- The request that asks whether the peer is alive. -/
def healthRequest : Request := { method := "GET", target := healthPath }

namespace Caller

/-- The caller of a peer at an address. -/
def ofAddress? (address : String) (timeout : Nat := 10000) : Except Error Caller :=
  match Address.baseUrl? address with
  | .error error => .error error
  | .ok baseUrl => .ok ⟨baseUrl, timeout⟩

/-- The URL of an endpoint. -/
def url (caller : Caller) (path : String) : String := caller.baseUrl ++ path

/-- The body of the response to a call, if the call succeeded. -/
def body (caller : Caller) (operation : String) : Delivery → Except Error Bytes
  | .unreachable reason => .error (.connection operation reason)
  | .late => .error (.timeout operation caller.timeout)
  | .answered response =>
      if response.isSuccess then .ok response.body
      else .error (.status operation response.status
        (String.ofList (Text.decodeReplacing response.body)))

/-- The reply in the response to a call. -/
def reply {α : Type} [Wire α] (caller : Caller) (operation : String) (delivery : Delivery) :
    Except Error α :=
  match caller.body operation delivery with
  | .error error => .error error
  | .ok body => decode operation body

variable {σ : Type}

/-- Asks the peer to take over a computation. -/
def execute (caller : Caller) (link : Link) (service : Service σ) (state : σ)
    (message : ExecuteRequest) : Except Error ExecuteReply × σ :=
  let (delivery, after) := link.send service state message.toRequest
  (caller.reply "execute" delivery, after)

/-- Tells the peer that a computation has ended. -/
def finish (caller : Caller) (link : Link) (service : Service σ) (state : σ)
    (session : SessionId) : Except Error FinishReply × σ :=
  let (delivery, after) := link.send service state (FinishRequest.toRequest ⟨session⟩)
  (caller.reply "finish" delivery, after)

/-- Asks the peer whether it is alive. -/
def health (caller : Caller) (link : Link) (service : Service σ) (state : σ) :
    Except Error Unit × σ :=
  let (delivery, after) := link.send service state healthRequest
  ((caller.body "health" delivery).map fun _ => (), after)

end Caller

end Ferry.Peer
