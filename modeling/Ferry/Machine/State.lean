import Ferry.Machine.Module
import Ferry.Machine.Trap
import Ferry.Snapshot.Basic

/-!
# Machine states

A machine holds the activations that have begun and not yet returned: the one that runs and its
callers. There is always one that runs, so a machine has at least one activation. Recording turns
an activation into a frame and a machine into a snapshot.
-/

namespace Ferry

/-- One call that has begun and not yet returned. -/
structure Activation where
  /-- The index of the function that was called. -/
  function : UInt32
  /-- The offset of the next instruction. -/
  pc : Nat
  /-- The local slots, parameters first. -/
  locals : List Word
  /-- The operand stack, top first. -/
  operands : List Word
  deriving DecidableEq, Repr

namespace Activation

/-- The activation at the start of a function. Arguments fill the first local slots and zeros the
others. -/
def enter (index : UInt32) (function : Function) (arguments : List Word) : Activation where
  function := index
  pc := 0
  locals := arguments ++ List.replicate (function.locals.toNat - arguments.length) 0
  operands := []

/-- The recorded form of an activation. -/
def record (activation : Activation) : Frame where
  programCounter := activation.pc.toUInt32
  functionIndex := activation.function
  locals := activation.locals
  operands := activation.operands.reverse

/-- The activation that a frame records. -/
def ofFrame (frame : Frame) : Activation where
  function := frame.functionIndex
  pc := frame.programCounter.toNat
  locals := frame.locals
  operands := frame.operands.reverse

/-- Pops the topmost operand. -/
def pop (activation : Activation) : Except Trap (Word × Activation) :=
  match activation.operands with
  | [] => .error .stackUnderflow
  | value :: rest => .ok (value, { activation with operands := rest })

/-- Pushes an operand. -/
def push (activation : Activation) (value : Word) : Activation :=
  { activation with operands := value :: activation.operands }

/-- Splits off the topmost operands. The first component lists them bottom first. -/
def popMany (activation : Activation) (count : Nat) : Except Trap (List Word × Activation) :=
  if activation.operands.length < count then .error .stackUnderflow
  else .ok ((activation.operands.take count).reverse,
    { activation with operands := activation.operands.drop count })

/-- Pushes several operands, the first one first. -/
def pushMany (activation : Activation) (values : List Word) : Activation :=
  { activation with operands := values.reverse ++ activation.operands }

/-- The value of a local slot. -/
def local? (activation : Activation) (slot : UInt32) : Except Trap Word :=
  match activation.locals[slot.toNat]? with
  | some value => .ok value
  | none => .error (.noSuchLocal slot)

/-- Stores a value in a local slot. -/
def setLocal (activation : Activation) (slot : UInt32) (value : Word) : Except Trap Activation :=
  if slot.toNat < activation.locals.length then
    .ok { activation with locals := activation.locals.set slot.toNat value }
  else .error (.noSuchLocal slot)

/-- Moves on to the next instruction. -/
def next (activation : Activation) : Activation :=
  { activation with pc := activation.pc + 1 }

/-- Continues at an offset. -/
def goTo (activation : Activation) (target : UInt32) : Activation :=
  { activation with pc := target.toNat }

end Activation

/-- The activations of a computation in progress. -/
structure Machine where
  /-- The function through which the computation was called. -/
  entry : UInt32
  /-- The activation that runs. -/
  top : Activation
  /-- The activations that wait for a return, innermost first. -/
  callers : List Activation
  deriving DecidableEq, Repr

namespace Machine

/-- The number of live activations. -/
def depth (machine : Machine) : Nat := machine.callers.length + 1

/-- The live activations, innermost first. -/
def activations (machine : Machine) : List Activation := machine.top :: machine.callers

/-- The machine that is about to run the first instruction of a function. -/
def start (index : UInt32) (function : Function) (arguments : List Word) : Machine :=
  ⟨index, .enter index function arguments, []⟩

/-- The snapshot that records every live activation. -/
def record (machine : Machine) : Snapshot :=
  ⟨true, machine.activations.map Activation.record, machine.entry⟩

/-- A machine has at least one activation, so its record passes for a captured snapshot. -/
theorem capture_record (machine : Machine) :
    Snapshot.capture (machine.activations.map Activation.record) machine.entry =
      .ok machine.record := by
  simp [Snapshot.capture, record, activations]

end Machine

end Ferry
