import Ferry.Peer.Error
import Ferry.Peer.Http
import Ferry.Peer.Message

/-!
# Endpoints

A server offers three endpoints: one to hand over a computation, one to tell that a computation has
ended, and one to see whether the server is alive. Behind them stands a service. It is called only
with messages that are not too large, that were read completely and, for a computation that is
handed over, whose snapshot is well formed.
-/

namespace Ferry.Peer

/-- What stands behind the endpoints: how it answers in a state, and in which state it is then. -/
structure Service (σ : Type) where
  /-- Takes over a computation, or refuses it. -/
  execute : σ → ExecuteRequest → Except Failure ExecuteReply × σ
  /-- Takes notice that a computation has ended. -/
  finish : σ → FinishRequest → Except Failure FinishReply × σ

/-- The path of the endpoint that takes over computations. -/
def executePath : String := "/v1/execute"

/-- The path of the endpoint that takes notices. -/
def finishPath : String := "/v1/finish"

/-- The path of the endpoint that shows that the server is alive. -/
def healthPath : String := "/v1/health"

/-- The largest body of a message that the server takes, in bytes. -/
def maxMessage : Nat := 1024 * 1024 * 1024

/-- The response to a message with a larger body. -/
def tooLarge : Response := .text 413 "Failed to buffer the request body: length limit exceeded"

/-- The request that the body of a call to the first endpoint carries. -/
def readExecute (body : Bytes) : Except Error ExecuteRequest :=
  match decode (α := ExecuteRequest) "execute" body with
  | .error error => .error error
  | .ok request =>
      match request.check with
      | .ok () => .ok request
      | .error failure => .error (.codec "execute" failure.message)

/-- The request that the body of a call to the second endpoint carries. -/
def readFinish (body : Bytes) : Except Error FinishRequest :=
  decode (α := FinishRequest) "finish" body

/-- The response to a call that the service has answered. -/
def respond {α : Type} [Wire α] : Except Failure α → Response
  | .ok reply => .message (Wire.write reply)
  | .error failure => .text 500 failure.message

namespace Service

variable {σ : Type}

/-- Answers a call to the first endpoint. -/
def answerExecute (service : Service σ) (state : σ) (body : Bytes) : Response × σ :=
  if maxMessage < body.length then (tooLarge, state)
  else
    match readExecute body with
    | .error error => (.text 400 error.message, state)
    | .ok request =>
        let (reply, after) := service.execute state request
        (respond reply, after)

/-- Answers a call to the second endpoint. -/
def answerFinish (service : Service σ) (state : σ) (body : Bytes) : Response × σ :=
  if maxMessage < body.length then (tooLarge, state)
  else
    match readFinish body with
    | .error error => (.text 400 error.message, state)
    | .ok request =>
        let (reply, after) := service.finish state request
        (respond reply, after)

/-- Answers a request for a path. -/
def answerPath (service : Service σ) (state : σ) (request : Request) (path : String) :
    Response × σ :=
  if path = executePath then
    if request.method = "POST" then service.answerExecute state request.body
    else (.bare 405, state)
  else if path = finishPath then
    if request.method = "POST" then service.answerFinish state request.body
    else (.bare 405, state)
  else if path = healthPath then
    if request.method = "GET" then (.text 200 "ok", state)
    else if request.method = "HEAD" then (.text 200 "", state)
    else (.bare 405, state)
  else (.bare 404, state)

/-- Answers any request. -/
def answer (service : Service σ) (state : σ) (request : Request) : Response × σ :=
  match request.route? with
  | none => (.bare 400, state)
  | some path => service.answerPath state request path

end Service

end Ferry.Peer
