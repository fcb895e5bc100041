import Ferry.Bytes
import Ferry.Peer.Target

/-!
# Requests and responses

The part of an exchange over HTTP that the peers look at.
-/

namespace Ferry.Peer

/-- What a client asks. -/
structure Request where
  method : String
  target : String
  contentType : Option String := none
  body : Bytes := []
  deriving DecidableEq, Repr

/-- What a server answers. -/
structure Response where
  status : Nat
  contentType : Option String := none
  body : Bytes := []
  deriving DecidableEq, Repr

/-- The content type of a message. -/
def messageType : String := "application/octet-stream"

/-- The content type of a plain text. -/
def textType : String := "text/plain; charset=utf-8"

/-- A response that carries a message. -/
def Response.message (body : Bytes) : Response := ⟨200, some messageType, body⟩

/-- A response that carries a plain text. -/
def Response.text (status : Nat) (text : String) : Response :=
  ⟨status, some textType, .ofText text⟩

/-- A response that carries nothing. -/
def Response.bare (status : Nat) : Response := ⟨status, none, []⟩

/-- Whether the status tells of success. -/
def Response.isSuccess (response : Response) : Bool :=
  200 ≤ response.status && response.status < 300

/-- Whether a text can be a method: letters, digits and some signs, at least one of them. -/
def isMethod (text : String) : Bool :=
  text != "" && text.toList.all fun c => c.isAlphanum || c ∈ "!#$%&\x27*+-.^_\x60|~".toList

/-- The path that a request asks for, if its method and its target can be read. -/
def Request.route? (request : Request) : Option String :=
  if isMethod request.method then Target.path? request.target else none

end Ferry.Peer
