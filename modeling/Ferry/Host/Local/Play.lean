import Ferry.Host.Local

/-!
# Playing a local host

A local host is played to its end with the keys that an operator presses. A key is meant for a phase
of the session: it is pressed once the host waits at its gate in that phase, or once an invocation
has gone on in that phase for some time. After the last key the keyboard closes. How much time an
instruction takes is the pace of the play.
-/

namespace Ferry

/-- How the steps of a host relate to time. -/
structure Pace where
  /-- The number of steps in a millisecond. -/
  stepsPerMillisecond : Nat := 20000
  /-- The number of steps of an invocation after which the operator presses the next key. -/
  reaction : Nat := 50000
  deriving DecidableEq, Repr

/-- Whether the time of a policy is over right before a boundary of an invocation. -/
def Pace.expires (pace : Pace) (policy : Policy) (boundary : Nat) : Bool :=
  match policy with
  | .timeout milliseconds => boundary == milliseconds * pace.stepsPerMillisecond
  | _ => false

/-- A key and the phase of the session for which it is meant. -/
structure Keystroke where
  action : KeyAction
  phase : Phase
  deriving DecidableEq, Repr

namespace Local

/-- Whether the host waits for the operator. -/
def waits (host : Local) : Bool :=
  match host.stage with
  | .gate _ => host.config.policy.isManual && !host.queued && host.keyboardOpen
  | _ => false

/-- Whether an invocation is in flight. -/
def isRunning (host : Local) : Bool :=
  match host.stage with
  | .running _ _ => true
  | _ => false

/-- What happens next, after `steps` steps since the last key. -/
def nextEvent (pace : Pace) (steps : Nat) (host : Local) : List Keystroke → Event
  | [] => if host.keyboardOpen then .closeKeyboard else .proceed
  | stroke :: _ =>
      if host.session.phase = stroke.phase ∧
          (host.waits ∨ (host.isRunning ∧ pace.reaction ≤ steps)) then
        .key stroke.action
      else .proceed

/-- Lets a millisecond pass when enough steps were made. -/
def tick (pace : Pace) (steps : Nat) (host : Local) : Local :=
  if steps % pace.stepsPerMillisecond = 0 then { host with toHost := host.toHost.elapse 1 }
  else host

/-- Plays a host with the keys that are still to be pressed, for at most `fuel` events. There is no
result if that is not enough, or if the host waits for a key that is not pressed. -/
def play (pace : Pace) : (fuel steps : Nat) → List Keystroke → Local → Option Local
  | 0, _, _, _ => none
  | fuel + 1, steps, strokes, host =>
      match host.stage with
      | .ended _ => some host
      | _ =>
          let event := nextEvent pace steps host strokes
          match host.step event with
          | none => none
          | some next =>
              match event with
              | .key _ => play pace fuel 0 strokes.tail next
              | _ => play pace fuel (steps + 1) strokes (next.tick pace (steps + 1))

/-- Lets a host go on by itself for at most `fuel` events. No time passes. -/
def work : (fuel : Nat) → Local → Local
  | 0, host => host
  | fuel + 1, host =>
      match host.proceed with
      | none => host
      | some next => work fuel next

/-- The state after an event, which is lost if it cannot happen. -/
def hear (host : Local) (event : Event) : Local := (host.step event).getD host

end Local

end Ferry
