import Ferry.Host.Remote.Exchange

/-!
# Two hosts that are each other's peers

Two remote hosts and the messages between them. Each host goes its own way; a message that leaves
one of them travels, is dealt with by the other's server at some time, and the reply travels back to
the run that waits for it. Nothing is lost and nothing comes twice, but messages may overtake each
other.
-/

namespace Ferry

/-- One of two hosts. -/
inductive Side where
  | first | second
  deriving DecidableEq, Repr

/-- The other host. -/
def Side.other : Side → Side
  | first => second
  | second => first

namespace Pair

/-- What travels between two hosts. -/
inductive Parcel where
  /-- A message of a run. -/
  | message (sender : Side) (run : Nat) (call : Remote.Call)
  /-- The reply to a message of a run. -/
  | reply (sender : Side) (run : Nat) (answer : Remote.Answer)

end Pair

/-- Two hosts and what travels between them. -/
structure Pair where
  first : Remote
  second : Remote
  parcels : List Pair.Parcel := []

namespace Pair

/-- What can happen to two hosts. -/
inductive Event where
  /-- Something happens inside one host. -/
  | inside (side : Side) (event : Remote.Event)
  /-- A parcel arrives. -/
  | arrival (position : Nat)

/-- The host on a side. -/
def host (pair : Pair) : Side → Remote
  | .first => pair.first
  | .second => pair.second

/-- Replaces the host on a side. -/
def setHost (pair : Pair) (side : Side) (host : Remote) : Pair :=
  match side with
  | .first => { pair with first := host }
  | .second => { pair with second := host }

/-- Whether an event comes from the host itself and not from its peer. -/
def isInternal : Remote.Event → Bool
  | .answer _ _ | .execute _ | .finish _ => false
  | _ => true

/-- The run that an event belongs to; only runs send messages. -/
def runOf : Remote.Event → Nat
  | .invoke run | .turn run | .settle run | .answer run _ => run
  | _ => 0

/-- Something happens inside one host. -/
def inside (pair : Pair) (side : Side) (event : Remote.Event) : Option Pair :=
  if isInternal event then
    ((pair.host side).step event).map fun (next, call) =>
      let moved := pair.setHost side next
      match call with
      | none => moved
      | some call => { moved with parcels := moved.parcels ++ [.message side (runOf event) call] }
  else none

/-- A parcel arrives: a message is dealt with by the other host, whose reply begins to travel, and a
reply is given to the run that waits for it. -/
def arrive (pair : Pair) (position : Nat) : Option Pair :=
  match pair.parcels[position]? with
  | none => none
  | some (.message sender run call) =>
      let (answer, receiver) :=
        call.exchange (pair.host sender).peer .up Remote.service (pair.host sender.other)
      let moved := pair.setHost sender.other receiver
      some { moved with parcels := moved.parcels.set position (.reply sender run answer) }
  | some (.reply sender run answer) =>
      ((pair.host sender).step (.answer run answer)).map fun (next, _) =>
        let moved := pair.setHost sender next
        { moved with parcels := moved.parcels.eraseIdx position }

/-- The state after an event, if it can happen. -/
def step (pair : Pair) : Event → Option Pair
  | .inside side event => pair.inside side event
  | .arrival position => pair.arrive position

/-- The state after several events, if all of them can happen. -/
def run : Pair → List Event → Option Pair
  | pair, [] => some pair
  | pair, event :: rest => (pair.step event).bind fun next => next.run rest

end Pair

end Ferry
