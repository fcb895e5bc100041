import Ferry.Frame

/-!
# Traps

A trap is the reason why a computation cannot go on: an instruction that has no result in the
current state, a call that does not fit, or a recorded frame that does not fit its function.
-/

namespace Ferry

/-- Why a computation cannot go on. -/
inductive Trap where
  | unreachable
  | divisionByZero
  /-- The quotient of the least word by minus one does not fit a word. -/
  | integerOverflow
  | stackUnderflow
  | callDepthExceeded (limit : Nat)
  | argumentMismatch (expected got : Nat)
  | unknownFunction (index : UInt32)
  | pcOutOfRange (pc : Nat)
  | corruptFrame (reason : String)
  /-- An instruction uses a slot that its activation does not have. -/
  | noSuchLocal (slot : UInt32)
  deriving DecidableEq, Repr

/-- The description of a trap. -/
def Trap.message : Trap → String
  | unreachable => "unreachable executed"
  | divisionByZero => "integer division by zero"
  | integerOverflow => "integer overflow"
  | stackUnderflow => "operand stack underflow"
  | callDepthExceeded limit => s!"call depth exceeded {limit}"
  | argumentMismatch expected got => s!"expected {expected} arguments, got {got}"
  | unknownFunction index => s!"function {functionText index} not found"
  | pcOutOfRange pc => s!"pc {pc} outside function body"
  | corruptFrame reason => s!"corrupt frame: {reason}"
  | noSuchLocal slot => s!"local {slot.toNat} not found"

end Ferry
