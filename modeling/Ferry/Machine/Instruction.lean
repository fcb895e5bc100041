import Ferry.Frame

/-!
# Instructions

Instructions work on the operand stack and the local slots of one activation. Jump targets are
offsets into the body of the function that holds the jump.
-/

namespace Ferry

/-- The operations that replace the two topmost operands by one result. -/
inductive BinaryOp where
  | add | sub | mul
  /-- The quotient, rounded toward zero. -/
  | div
  /-- The remainder of that quotient; it has the sign of the dividend. -/
  | rem
  | eq | ne | lt | le | gt | ge
  deriving DecidableEq, Repr

/-- One instruction of the machine. -/
inductive Instruction where
  /-- Does nothing. -/
  | nop
  /-- Traps. -/
  | unreachable
  /-- Pushes a constant. -/
  | const (value : Word)
  /-- Pushes the value of a local slot. -/
  | localGet (slot : UInt32)
  /-- Pops a value into a local slot. -/
  | localSet (slot : UInt32)
  /-- Copies the top of the stack into a local slot. -/
  | localTee (slot : UInt32)
  /-- Discards the top of the stack. -/
  | drop
  /-- Replaces the two topmost operands by a result. -/
  | binary (op : BinaryOp)
  /-- Replaces the top of the stack by one if it is zero, and by zero otherwise. -/
  | isZero
  /-- Continues at the target. -/
  | jump (target : UInt32)
  /-- Pops a value and continues at the target if it is not zero. -/
  | jumpIf (target : UInt32)
  /-- Pops a value and continues at the target if it is zero. -/
  | jumpIfNot (target : UInt32)
  /-- Calls a function, whose arguments are the topmost operands. -/
  | call (callee : UInt32)
  /-- Returns the topmost operands to the caller. -/
  | ret
  deriving DecidableEq, Repr

namespace Instruction

/-- Where a jump continues. -/
def jumpTarget? : Instruction → Option UInt32
  | jump target | jumpIf target | jumpIfNot target => some target
  | _ => none

/-- The local slot that an instruction uses. -/
def localSlot? : Instruction → Option UInt32
  | localGet slot | localSet slot | localTee slot => some slot
  | _ => none

/-- The function that an instruction calls. -/
def callee? : Instruction → Option UInt32
  | call callee => some callee
  | _ => none

/-- Whether control never goes on to the next instruction. -/
def isTerminator : Instruction → Bool
  | ret | unreachable | jump _ => true
  | _ => false

end Instruction

end Ferry
