import Ferry.Signal
import Ferry.Trigger.Policy

/-!
# Controllers

A controller arms the signal as its policy says. For every invocation it holds a guard; under a
timeout the guard carries a timer. Dropping the guard stops its timer and withdraws a request that
nobody has taken, so no request outlives the invocation it was meant for. Time is a logical clock
that moves only when it is told to, and a timer arms the signal in the same step in which the clock
reaches it; a timer that has no time to wait arms it as the invocation begins. No timer waits for
more than thirty years, however long the policy says.
-/

namespace Ferry

/-- What a controller holds for one invocation. -/
structure Guard where
  /-- The number of the guard, counted from zero. -/
  index : Nat
  /-- When the guard's timer goes off, if it has one that has not gone off yet. -/
  deadline : Option Nat
  deriving DecidableEq, Repr

/-- Whether a guard has a timer whose time has come. -/
def Guard.isDue (guard : Guard) (time : Nat) : Bool := guard.deadline.any (· ≤ time)

/-- Arms the signal as a policy says. -/
structure Controller where
  policy : Policy
  signal : Signal := {}
  /-- The time in milliseconds. -/
  now : Nat := 0
  /-- The number of guards made so far. -/
  begun : Nat := 0
  /-- The guards that are held, newest first. -/
  guards : List Guard := []
  deriving DecidableEq, Repr

namespace Controller

/-- The longest wait of a timer, in milliseconds: thirty years of 365 days. -/
def longestWait : Nat := 30 * 365 * 24 * 60 * 60 * 1000

/-- When the timer of an invocation that begins now goes off. -/
def deadline (controller : Controller) : Option Nat :=
  match controller.policy with
  | .timeout milliseconds => some (controller.now + min milliseconds longestWait)
  | _ => none

/-- Lets the timers that are due go off. They arm the signal, each of them once. -/
def ring (controller : Controller) : Controller :=
  { controller with
    signal := controller.signal.armIf (controller.guards.any (·.isDue controller.now))
    guards := controller.guards.map fun guard =>
      if guard.isDue controller.now then { guard with deadline := none } else guard }

/-- Begins an invocation: makes its guard, and arms the signal if every instruction is a pause or if
there is no time to wait. -/
def beginRun (controller : Controller) : Nat × Controller :=
  (controller.begun,
    ring { controller with
      signal := controller.signal.armIf (controller.policy = .stepAll)
      begun := controller.begun + 1
      guards := ⟨controller.begun, controller.deadline⟩ :: controller.guards })

/-- Whether a guard is held. -/
def holds (controller : Controller) (index : Nat) : Bool :=
  controller.guards.any fun guard => guard.index == index

/-- Drops a guard: its timer is stopped and the signal is disarmed. -/
def drop (controller : Controller) (index : Nat) : Bool × Controller :=
  if controller.holds index then
    (true, { controller with
      signal := controller.signal.disarm
      guards := controller.guards.filter fun guard => guard.index ≠ index })
  else (false, controller)

/-- Asks for a pause at the next boundary. -/
def request (controller : Controller) : Controller :=
  { controller with signal := controller.signal.arm }

/-- Withdraws a request that nobody has taken. -/
def disarm (controller : Controller) : Controller :=
  { controller with signal := controller.signal.disarm }

/-- Takes the request, as the engine does. -/
def take (controller : Controller) : Bool × Controller :=
  (controller.signal.take.1, { controller with signal := controller.signal.take.2 })

/-- Lets time pass. -/
def advance (controller : Controller) (milliseconds : Nat) : Controller :=
  ring { controller with now := controller.now + milliseconds }

end Controller

end Ferry
