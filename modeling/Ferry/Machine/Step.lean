import Ferry.Machine.State

/-!
# One step of a machine

A step runs one instruction of the running activation. It leads to another machine, ends the
computation with results, or ends it with a trap, which names the function and the offset of the
instruction that could not be run.
-/

namespace Ferry

/-- The result of an operation on two operands. Sums, differences and products wrap; a division by
zero and the one quotient that does not fit a word trap. -/
def BinaryOp.apply (op : BinaryOp) (left right : Word) : Except Trap Word :=
  match op with
  | add => .ok (left + right)
  | sub => .ok (left - right)
  | mul => .ok (left * right)
  | div =>
      if right = 0 then .error .divisionByZero
      else if left = Int64.minValue ∧ right = -1 then .error .integerOverflow
      else .ok (left / right)
  | rem =>
      if right = 0 then .error .divisionByZero
      else if left = Int64.minValue ∧ right = -1 then .error .integerOverflow
      else .ok (left % right)
  | eq => .ok (.ofBool (left == right))
  | ne => .ok (.ofBool (left != right))
  | lt => .ok (.ofBool (left < right))
  | le => .ok (.ofBool (left ≤ right))
  | gt => .ok (.ofBool (right < left))
  | ge => .ok (.ofBool (right ≤ left))

/-- What an instruction asks for beyond its own activation. -/
inductive Effect where
  /-- Nothing: the activation goes on. -/
  | proceed
  /-- A call of a function. -/
  | call (callee : UInt32)
  /-- A return to the caller. -/
  | ret
  deriving DecidableEq, Repr

/-- Runs an instruction inside its activation, whose program counter is already past it. -/
def Activation.execute (activation : Activation) :
    Instruction → Except Trap (Effect × Activation)
  | .nop => .ok (.proceed, activation)
  | .unreachable => .error .unreachable
  | .const value => .ok (.proceed, activation.push value)
  | .localGet slot => do
      let value ← activation.local? slot
      .ok (.proceed, activation.push value)
  | .localSet slot => do
      let (value, rest) ← activation.pop
      let stored ← rest.setLocal slot value
      .ok (.proceed, stored)
  | .localTee slot => do
      let (value, _) ← activation.pop
      let stored ← activation.setLocal slot value
      .ok (.proceed, stored)
  | .drop => do
      let (_, rest) ← activation.pop
      .ok (.proceed, rest)
  | .binary op => do
      let (right, rest) ← activation.pop
      let (left, rest) ← rest.pop
      let value ← op.apply left right
      .ok (.proceed, rest.push value)
  | .isZero => do
      let (value, rest) ← activation.pop
      .ok (.proceed, rest.push (.ofBool (value == 0)))
  | .jump target => .ok (.proceed, activation.goTo target)
  | .jumpIf target => do
      let (value, rest) ← activation.pop
      .ok (.proceed, if value = 0 then rest else rest.goTo target)
  | .jumpIfNot target => do
      let (value, rest) ← activation.pop
      .ok (.proceed, if value = 0 then rest.goTo target else rest)
  | .call callee => .ok (.call callee, activation)
  | .ret => .ok (.ret, activation)

/-- Where a computation trapped. -/
structure Site where
  /-- The function of the running activation. -/
  function : UInt32
  /-- The offset of the instruction that could not be run. -/
  pc : Nat
  deriving DecidableEq, Repr

/-- Where one step leads. -/
inductive Progress where
  /-- The computation goes on. -/
  | running (machine : Machine)
  /-- The entry function returned. -/
  | halted (results : List Word)
  /-- The instruction at the site trapped. -/
  | trapped (trap : Trap) (site : Site)
  deriving DecidableEq, Repr

namespace Machine

/-- Calls a function from the running activation. The limit on live activations is judged first,
then whether the function exists, then whether there are enough arguments. -/
def enterCall (module : Module) (limit : Nat) (machine : Machine) (callee : UInt32) :
    Except Trap Machine :=
  if limit ≤ machine.depth then .error (.callDepthExceeded limit)
  else
    match module.function? callee with
    | none => .error (.unknownFunction callee)
    | some function => do
        let (arguments, caller) ← machine.top.popMany function.params.toNat
        .ok { machine with
          top := .enter callee function arguments
          callers := caller :: machine.callers }

/-- Returns from the running activation: its topmost operands go to the caller, or are the results
of the computation if nobody waits for them. Its other operands are dropped. -/
def leaveCall (module : Module) (machine : Machine) : Except Trap (Machine ⊕ List Word) :=
  match module.function? machine.top.function with
  | none => .error (.unknownFunction machine.top.function)
  | some function => do
      let (values, _) ← machine.top.popMany function.results.toNat
      match machine.callers with
      | [] => .ok (.inr values)
      | caller :: callers =>
          .ok (.inl { machine with top := caller.pushMany values, callers := callers })

/-- The instruction that runs next. -/
def fetch (module : Module) (machine : Machine) : Except Trap Instruction :=
  match module.function? machine.top.function with
  | none => .error (.unknownFunction machine.top.function)
  | some function =>
      match function.code[machine.top.pc]? with
      | none => .error (.pcOutOfRange machine.top.pc)
      | some instruction => .ok instruction

/-- Runs one instruction; `inr` carries the results of a computation that has ended. -/
def advance (module : Module) (limit : Nat) (machine : Machine) :
    Except Trap (Machine ⊕ List Word) := do
  let instruction ← machine.fetch module
  let (effect, top) ← machine.top.next.execute instruction
  let reached := { machine with top := top }
  match effect with
  | .proceed => .ok (.inl reached)
  | .call callee => do
      let entered ← reached.enterCall module limit callee
      .ok (.inl entered)
  | .ret => reached.leaveCall module

/-- Where the next instruction of a machine stands. -/
def site (machine : Machine) : Site := ⟨machine.top.function, machine.top.pc⟩

/-- One step under a limit on live activations. -/
def step (module : Module) (limit : Nat) (machine : Machine) : Progress :=
  match machine.advance module limit with
  | .ok (.inl next) => .running next
  | .ok (.inr results) => .halted results
  | .error trap => .trapped trap machine.site

end Machine

end Ferry
