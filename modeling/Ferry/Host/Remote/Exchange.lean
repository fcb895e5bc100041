import Ferry.Host.Remote

/-!
# Calls of a remote host

A message that leaves a remote host is sent over the network to what stands behind the endpoints of
its peer, and the reply comes back as an answer to the run that sent it.
-/

namespace Ferry.Remote

variable {σ : Type}

/-- The request that carries a message. -/
def Call.toRequest : Call → Peer.Request
  | execute message => message.toRequest
  | finish message => message.toRequest

/-- The answer in what became of a message. -/
def Call.answer (call : Call) (caller : Peer.Caller) (delivery : Peer.Delivery) : Answer :=
  match call with
  | execute _ => .execute (caller.reply "execute" delivery)
  | finish _ => .finish (caller.reply "finish" delivery)

/-- Sends a message to a service and gives the answer. -/
def Call.exchange (call : Call) (caller : Peer.Caller) (link : Peer.Link)
    (service : Peer.Service σ) (state : σ) : Answer × σ :=
  let (delivery, after) := link.send service state call.toRequest
  (call.answer caller delivery, after)

end Ferry.Remote
