import Ferry.Peer.Http
import Ferry.Text.Blank
import Ferry.Text.Decimal

/-!
# Requests and responses as bytes

A message over HTTP is a head and a body. The head is a start line and fields, one to a line, and an
empty line ends it; the length of the body is one of the fields. Bytes arrive piece by piece, so
that what has arrived may be a part of a message only. A response without a length goes on until the
connection is closed.
-/

namespace Ferry.Peer

namespace Http

/-- What ends a line. -/
def lineEnd : String := "\r\n"

/-- The protocol that messages are written for. -/
def protocol : String := "HTTP/1.1"

/-- What the bytes that have arrived so far make. -/
inductive Arrival (α : Type) where
  /-- A part of a message. -/
  | incomplete
  /-- Nothing that could become a message. -/
  | malformed
  | complete (message : α)
  deriving DecidableEq, Repr

/-- The head of a message. -/
structure Head where
  /-- The words of the start line. -/
  start : List String
  /-- The fields, with names in lower case. -/
  fields : List (String × String)
  deriving DecidableEq, Repr

/-- The bytes before and after the first empty line. -/
def splitHead? : Bytes → Option (Bytes × Bytes)
  | [] => none
  | b :: rest =>
      if [13, 10, 13, 10].isPrefixOf (b :: rest) then some ([], (b :: rest).drop 4)
      else (splitHead? rest).map fun (head, body) => (b :: head, body)

/-- A field: a name, a colon and a value, around which blank characters do not matter. -/
def field? (line : String) : Option (String × String) :=
  let characters := line.toList
  match characters.dropWhile (· != ':') with
  | [] => none
  | _ :: value =>
      some (String.ofList ((characters.takeWhile (· != ':')).map Char.toLower),
        String.ofList (Text.trim value))

/-- The head that bytes make. -/
def Head.ofBytes? (bytes : Bytes) : Option Head := do
  match (← Bytes.text? bytes).splitOn lineEnd with
  | [] => none
  | start :: lines => some ⟨start.splitOn " ", ← lines.mapM field?⟩

/-- The length that a head gives to its body. -/
def Head.length? (head : Head) : Option Nat :=
  (head.fields.lookup "content-length").bind fun text => Text.natural? text.toList

/-- The body, if as much of it has arrived as its length says, or else until the end. -/
def body? (length : Option Nat) (rest : Bytes) (closed : Bool) : Option Bytes :=
  match length with
  | some n => if n ≤ rest.length then some (rest.take n) else none
  | none => if closed then some rest else none

/-- The message that has arrived, where a head without a length means the given one. -/
def arrival {α : Type} (length : Option Nat) (make? : Head → Bytes → Option α) (bytes : Bytes)
    (closed : Bool) : Arrival α :=
  let missing : Arrival α := if closed then .malformed else .incomplete
  match splitHead? bytes with
  | none => missing
  | some (first, rest) =>
      match Head.ofBytes? first with
      | none => .malformed
      | some head =>
          match body? (head.length?.or length) rest closed with
          | none => missing
          | some body => (make? head body).elim .malformed .complete

/-- A message with a start line, fields and a body. -/
def assemble (start : String) (fields : List (String × String)) (body : Bytes) : Bytes :=
  let lines := fields.map fun (name, value) => name ++ ": " ++ value ++ lineEnd
  .ofText (start ++ lineEnd ++ String.join lines ++ lineEnd) ++ body

/-- The fields that tell about a body. -/
def bodyFields (contentType : Option String) (body : Bytes) : List (String × String) :=
  (contentType.map fun value => ("content-type", value)).toList ++
    [("content-length", toString body.length), ("connection", "close")]

/-- The phrase for a status. -/
def phrase (status : Nat) : String :=
  match status with
  | 200 => "OK"
  | 400 => "Bad Request"
  | 404 => "Not Found"
  | 405 => "Method Not Allowed"
  | 500 => "Internal Server Error"
  | _ => "Unknown"

end Http

open Http

/-- The bytes of a request to a host. -/
def Request.toBytes (request : Request) (host : String) : Bytes :=
  assemble s!"{request.method} {request.target} {protocol}"
    (("host", host) :: bodyFields request.contentType request.body) request.body

/-- The request that has arrived. -/
def Request.arrival (bytes : Bytes) (closed : Bool) : Arrival Request :=
  Http.arrival (some 0) (fun head body =>
    match head.start with
    | [method, target, _] => some ⟨method, target, head.fields.lookup "content-type", body⟩
    | _ => none) bytes closed

/-- The bytes of a response. -/
def Response.toBytes (response : Response) : Bytes :=
  let phrase := phrase response.status
  assemble s!"{protocol} {response.status} {phrase}" (bodyFields response.contentType response.body)
    response.body

/-- The response that has arrived. -/
def Response.arrival (bytes : Bytes) (closed : Bool) : Arrival Response :=
  Http.arrival none (fun head body =>
    match head.start with
    | _ :: status :: _ =>
        (Text.natural? status.toList).map fun status =>
          ⟨status, head.fields.lookup "content-type", body⟩
    | _ => none) bytes closed

end Ferry.Peer
