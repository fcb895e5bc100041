import Ferry.Program.Basic

/-!
# Programs that come with the library

Three small programs: the Fibonacci numbers by their recursion, the sum of the first numbers by a
loop, and the Ackermann function by its recursion.
-/

namespace Ferry.Program

open Instruction

/-- The Fibonacci number of slot 0, by two recursive calls. -/
def fibCode : Array Instruction := #[
  localGet 0, const 2, binary .lt, jumpIfNot 6,
  localGet 0, ret,
  localGet 0, const 1, binary .sub, call 0,
  localGet 0, const 2, binary .sub, call 0,
  binary .add, ret]

/-- The sum of the numbers from 1 to slot 0. Slot 1 counts and slot 2 collects. -/
def sumCode : Array Instruction := #[
  const 1, localSet 1,
  localGet 1, localGet 0, binary .gt, jumpIf 15,
  localGet 2, localGet 1, binary .add, localSet 2,
  localGet 1, const 1, binary .add, localSet 1, jump 2,
  localGet 2, ret]

/-- The Ackermann function of slots 0 and 1. -/
def ackermannCode : Array Instruction := #[
  localGet 0, isZero, jumpIfNot 7,
  localGet 1, const 1, binary .add, ret,
  localGet 1, isZero, jumpIfNot 16,
  localGet 0, const 1, binary .sub, const 1, call 0, ret,
  localGet 0, const 1, binary .sub,
  localGet 0, localGet 1, const 1, binary .sub, call 0,
  call 0, ret]

/-- The naive recursion for the Fibonacci numbers. -/
def fib : Program where
  name := "fib"
  description := "naive recursive fibonacci"
  module := ⟨#[.ofCode "fib" 1 fibCode], by decide⟩
  entry := 0
  defaultArguments := [9]
  exported := by decide

/-- The sum of the first numbers. -/
def sum : Program where
  name := "sum"
  description := "iterative sum of 1..=n"
  module := ⟨#[(Function.ofCode "sum" 1 sumCode).withExtraLocals 2], by decide⟩
  entry := 0
  defaultArguments := [100000000]
  exported := by decide

/-- The Ackermann function of two arguments. -/
def ackermann : Program where
  name := "ackermann"
  description := "two-argument ackermann function"
  module := ⟨#[.ofCode "ackermann" 2 ackermannCode], by decide⟩
  entry := 0
  defaultArguments := [2, 3]
  exported := by decide

end Ferry.Program
