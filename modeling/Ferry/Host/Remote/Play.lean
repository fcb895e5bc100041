import Ferry.Host.Local.Play
import Ferry.Host.Remote.Exchange

/-!
# Playing a remote host

A remote host is played until it waits for something from outside: a key or a request. Its messages
are sent over the network at once, and the replies are given back. The main loop goes before the
runs, so that a run without end does not keep it from hearing its notices.
-/

namespace Ferry.Remote

/-- What a run does next by itself. -/
def Run.nextEvent? (run : Run) : Option Event :=
  match run.stage with
  | .spawned _ => some (.invoke run.id)
  | .invoking _ _ => some (.turn run.id)
  | .returned _ => some (.settle run.id)
  | .handing | .telling _ => none

/-- What the main loop does next by itself. -/
def loopEvent? (host : Remote) : Option Event :=
  match host.loop with
  | .starting _ => some .begin
  | .waiting => if host.inbox.isEmpty then none else some .notice
  | .grace deadline =>
      if deadline ≤ host.controller.now then some .graceOver
      else some (.elapse (deadline - host.controller.now))
  | .ended _ => none

/-- What the host does next by itself. -/
def nextEvent? (host : Remote) : Option Event :=
  match host.loop with
  | .ended _ => none
  | _ => host.loopEvent?.or (host.runs.findSome? Run.nextEvent?)

/-- Lets a millisecond pass when enough steps were made. -/
def tick (pace : Pace) (steps : Nat) (host : Remote) : Remote :=
  if steps % pace.stepsPerMillisecond = 0 then { host with toHost := host.toHost.elapse 1 }
  else host

variable {σ : Type}

/-- Plays a host against a service until it waits for something from outside, for at most `fuel`
events. -/
def play (pace : Pace) (link : Peer.Link) (service : Peer.Service σ) :
    (fuel steps : Nat) → Remote → σ → Remote × σ
  | 0, _, host, state => (host, state)
  | fuel + 1, steps, host, state =>
      match host.nextEvent? with
      | none => (host, state)
      | some event =>
          match host.step event with
          | none => (host, state)
          | some (next, none) =>
              play pace link service fuel (steps + 1) (next.tick pace (steps + 1)) state
          | some (next, some call) =>
              let (answer, after) := call.exchange next.peer link service state
              match event with
              | .settle run =>
                  match next.step (.answer run answer) with
                  | none => (next, after)
                  | some (answered, _) =>
                      play pace link service fuel (steps + 1) answered after
              | _ => (next, after)

/-- Lets a host go on by itself for at most `fuel` events, until a message leaves it; the message
comes with the run that sent it. No time passes. -/
def work : (fuel : Nat) → Remote → Remote × Option (Nat × Call)
  | 0, host => (host, none)
  | fuel + 1, host =>
      match host.nextEvent? with
      | none | some (.elapse _) => (host, none)
      | some event =>
          match host.step event, event with
          | some (next, some call), .settle run => (next, some (run, call))
          | some (next, _), _ => work fuel next
          | none, _ => (host, none)

/-- The state after a key; a key that the main loop takes no notice of is lost. -/
def pressKey (host : Remote) (action : KeyAction) : Remote :=
  match host.step (.key action) with
  | some (next, _) => next
  | none => host

/-- The state after an answer to a run. -/
def hearAnswer (host : Remote) (run : Nat) (answer : Answer) : Remote :=
  match host.step (.answer run answer) with
  | some (next, _) => next
  | none => host

end Ferry.Remote
