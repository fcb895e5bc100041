import Ferry.Trigger.Controller

/-!
# What the operations of a controller change

The policy stays, and only the beginning of an invocation makes a guard. Under the policy that
pauses at every instruction an invocation begins with an armed signal. A request stays in force
until it is taken, or until a guard is dropped: the passing of time never withdraws it.
-/

namespace Ferry.Controller

variable (controller : Controller)

@[simp]
theorem policy_ring : controller.ring.policy = controller.policy :=
  rfl

@[simp]
theorem begun_ring : controller.ring.begun = controller.begun :=
  rfl

@[simp]
theorem policy_beginRun : controller.beginRun.2.policy = controller.policy :=
  rfl

@[simp]
theorem begun_beginRun : controller.beginRun.2.begun = controller.begun + 1 :=
  rfl

@[simp]
theorem policy_drop (index : Nat) : (controller.drop index).2.policy = controller.policy := by
  rw [drop]
  split <;> rfl

@[simp]
theorem begun_drop (index : Nat) : (controller.drop index).2.begun = controller.begun := by
  rw [drop]
  split <;> rfl

@[simp]
theorem policy_request : controller.request.policy = controller.policy :=
  rfl

@[simp]
theorem begun_request : controller.request.begun = controller.begun :=
  rfl

@[simp]
theorem armed_request : controller.request.signal.armed = true :=
  rfl

@[simp]
theorem policy_advance (milliseconds : Nat) :
    (controller.advance milliseconds).policy = controller.policy :=
  rfl

@[simp]
theorem begun_advance (milliseconds : Nat) :
    (controller.advance milliseconds).begun = controller.begun :=
  rfl

variable {controller}

theorem armed_ring (armed : controller.signal.armed = true) :
    controller.ring.signal.armed = true := by
  simp [ring, Signal.armIf, armed]

theorem armed_advance (armed : controller.signal.armed = true) (milliseconds : Nat) :
    (controller.advance milliseconds).signal.armed = true :=
  armed_ring armed

/-- Under the policy that pauses at every instruction an invocation begins with an armed signal. -/
theorem armed_beginRun (stepping : controller.policy = .stepAll) :
    controller.beginRun.2.signal.armed = true := by
  apply armed_ring
  simp [Signal.armIf, stepping]

end Ferry.Controller
